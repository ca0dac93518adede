/-
The lines of the mobs over time. Every mob speaks for itself: two of its lines lie its shortest pause apart, and while
somebody is there to hear it, it is never silent longer than its longest; and every player whose connection is there is
sent what was said since it came, once and in order. A flush of an outbox is that of the queue of reliable events, of
which these lines are a part.
-/
import Zohar.Mob.Chatter
import Zohar.Replication.Outbox

namespace Zohar.Mob

open Zohar.Lib
open Zohar.Game (Text utf8 ChatChannel)
open Zohar.Net (Bytes MobKind)
open Zohar.Replication (EntityId TrySend sendAll sendAll_append)
open Zohar.Sim (Entity)
open Zohar.Spawn (MobId)

/-! ## One mob -/

def chatContextIdle : Text := "idle".toList

structure MobChatState where
  nextEmitAt : Nat
  deriving DecidableEq, Repr

/-- What the chat reads of `SharedConfig`. -/
structure ChatConfig where
  mobs : MobId → Option MobKind
  mobChat : MobChatContent

structure ChattingMob where
  entity : Entity
  mobId : MobId
  netId : EntityId
  chatState : Option MobChatState

/-- The numbers of the generator that a mob gets. -/
structure ChatRoll where
  pause : Nat
  line : Nat

def randomIntervalMs (roll minMs maxMs : Nat) : Nat := if maxMs ≤ minMs then minMs else randomBetween roll minMs maxMs

/-- Seconds in milliseconds, saturating. -/
def secsToMs (sec : Nat) : Nat := min (sec * 1000) u64Max

/-- The text with a zero at its end. -/
def terminated (text : Text) : Bytes := if (utf8 text).getLast? = some 0 then utf8 text else utf8 text ++ [0]

/-- A round of the loop of `emit_idle_chat`. -/
def ChattingMob.emit (cfg : ChatConfig) (now : Nat) (mob : ChattingMob) (roll : ChatRoll) :
    ChattingMob × Option Bytes :=
  match cfg.mobs mob.mobId with
  | none => (mob, none)
  | some mobKind =>
    match cfg.mobChat.strategyFor chatContextIdle mobKind mob.mobId with
    | none => (mob, none)
    | some strategy =>
      match cfg.mobChat.linesFor chatContextIdle mob.mobId with
      | none => (mob, none)
      | some lines =>
        if lines.isEmpty then (mob, none)
        else
          let nextDelayMs := randomIntervalMs roll.pause (secsToMs strategy.intervalMinSec)
            (secsToMs strategy.intervalMaxSec)
          let later := { mob with chatState := some ⟨satAdd now nextDelayMs⟩ }
          match mob.chatState with
          | none => (later, none)
          | some chatState =>
            if now < chatState.nextEmitAt then (mob, none)
            else (later, (lines[roll.line % lines.length]?).map fun line => terminated line.text)

/-! ## The map -/

structure ChatEvent where
  channel : ChatChannel
  senderEntityId : Option EntityId
  empire : Option Game.Empire
  message : Bytes

/-- A line that was said, with the mob and the time. -/
structure Said where
  entity : Entity
  mobId : MobId
  netId : EntityId
  saidAt : Nat
  message : Bytes

def Said.event (said : Said) : ChatEvent := ⟨.speak, some said.netId, none, said.message⟩

/-- A player and its outbox. What the channel took, how much was said before the player came and whether a flush found
the receiver closed are history. -/
structure Listener where
  entity : Entity
  outbox : List ChatEvent
  sent : List ChatEvent
  joined : Nat
  closed : Bool

/-- A full channel leaves the rest for the next flush; a closed one has the outbox cleared. -/
def Listener.flush (player : Listener) (answers : List TrySend) : Listener :=
  let r := sendAll player.outbox answers
  { player with
    outbox := if r.outcome = .closed then [] else r.left
    sent := player.sent ++ r.taken
    closed := player.closed || r.outcome = .closed }

/-- The map, its entities in the order of the queries. All that was said is history. -/
structure ChatWorld where
  simNow : Nat
  entities : Nat
  mobs : List ChattingMob
  players : List Listener
  said : List Said

def ChatWorld.start (now : Nat) : ChatWorld := ⟨now, 0, [], [], []⟩

/-- The line of a mob in a round. -/
def ChattingMob.saying (cfg : ChatConfig) (now : Nat) (mob : ChattingMob) (roll : ChatRoll) : Option Said :=
  (mob.emit cfg now roll).2.map fun message => ⟨mob.entity, mob.mobId, mob.netId, now, message⟩

def emitIdleChat (cfg : ChatConfig) (w : ChatWorld) (rolls : Entity → ChatRoll) : ChatWorld :=
  if w.players.isEmpty then w
  else
    let emissions := w.mobs.filterMap fun mob => mob.saying cfg w.simNow (rolls mob.entity)
    { w with
      mobs := w.mobs.map fun mob => (mob.emit cfg w.simNow (rolls mob.entity)).1
      players := w.players.map fun player => { player with outbox := player.outbox ++ emissions.map Said.event }
      said := w.said ++ emissions }

inductive ChatStep where
  | tick (now : Nat)
  | spawn (mobId : MobId) (netId : EntityId)
  | despawn (entity : Entity)
  | enter
  | leave (entity : Entity)
  | emit (rolls : Entity → ChatRoll)
  | flush (answers : Entity → List TrySend)

/-- One step of the map. A receiver that is closed answers nothing else from then on. -/
def ChatWorld.step (cfg : ChatConfig) (w : ChatWorld) : ChatStep → Option ChatWorld
  | .tick now => if w.simNow ≤ now ∧ now ≤ u64Max then some { w with simNow := now } else none
  | .spawn mobId netId => some
    { w with mobs := w.mobs ++ [⟨⟨w.entities⟩, mobId, netId, none⟩], entities := w.entities + 1 }
  | .despawn entity => some { w with mobs := w.mobs.filter fun mob => mob.entity ≠ entity }
  | .enter => some
    { w with players := w.players ++ [⟨⟨w.entities⟩, [], [], w.said.length, false⟩], entities := w.entities + 1 }
  | .leave entity => some { w with players := w.players.filter fun player => player.entity ≠ entity }
  | .emit rolls => some (emitIdleChat cfg w rolls)
  | .flush answers =>
    if ∀ player ∈ w.players, player.closed → ∀ answer ∈ answers player.entity, answer = .closed then
      some { w with players := w.players.map fun player => player.flush (answers player.entity) }
    else none

def ChatWorld.saidBy (w : ChatWorld) (entity : Entity) : List Said := w.said.filter fun s => s.entity = entity

/-! ## What a round does -/

/-- The pauses and the lines of the mobs of an id, where they have any. -/
def ChatConfig.voice (cfg : ChatConfig) (mobId : MobId) : Option (MobChatStrategyInterval × List MobChatLine) :=
  (cfg.mobs mobId).bind fun mobKind =>
    (cfg.mobChat.strategyFor chatContextIdle mobKind mobId).bind fun strategy =>
      (cfg.mobChat.linesFor chatContextIdle mobId).bind fun lines =>
        if lines.isEmpty then none else some (strategy, lines)

/-- What a round makes of a mob, and what the mob says. -/
inductive Emits (cfg : ChatConfig) (now : Nat) (mob : ChattingMob) : ChattingMob × Option Bytes → Prop where
  | mute (hvoice : cfg.voice mob.mobId = none) : Emits cfg now mob (mob, none)
  | early {chatState : MobChatState} (hstate : mob.chatState = some chatState) (hearly : now < chatState.nextEmitAt) :
      Emits cfg now mob (mob, none)
  | notice {interval : MobChatStrategyInterval} {lines : List MobChatLine} {delay : Nat}
      (hvoice : cfg.voice mob.mobId = some (interval, lines)) (hstate : mob.chatState = none)
      (hmax : delay ≤ max (secsToMs interval.intervalMinSec) (secsToMs interval.intervalMaxSec)) :
      Emits cfg now mob ({ mob with chatState := some ⟨satAdd now delay⟩ }, none)
  | speak {interval : MobChatStrategyInterval} {lines : List MobChatLine} {delay : Nat} {chatState : MobChatState}
      {line : MobChatLine} (hvoice : cfg.voice mob.mobId = some (interval, lines))
        (hstate : mob.chatState = some chatState)
      (hdue : chatState.nextEmitAt ≤ now) (hmin : secsToMs interval.intervalMinSec ≤ delay)
      (hmax : delay ≤ max (secsToMs interval.intervalMinSec) (secsToMs interval.intervalMaxSec))
        (hline : line ∈ lines) :
      Emits cfg now mob ({ mob with chatState := some ⟨satAdd now delay⟩ }, some (terminated line.text))

theorem randomIntervalMs_mem (roll minMs maxMs : Nat) :
    minMs ≤ randomIntervalMs roll minMs maxMs ∧ randomIntervalMs roll minMs maxMs ≤ max minMs maxMs := by
  unfold randomIntervalMs
  split
  · exact ⟨le_rfl, le_max_left _ _⟩
  · rename_i hlt
    obtain ⟨hlow, hhigh⟩ := randomBetween_mem roll (not_le.1 hlt).le
    exact ⟨hlow, hhigh.trans (le_max_right _ _)⟩

theorem emits_emit (cfg : ChatConfig) (now : Nat) (mob : ChattingMob) (roll : ChatRoll) :
    Emits cfg now mob (mob.emit cfg now roll) := by
  unfold ChattingMob.emit
  cases hkind : cfg.mobs mob.mobId with
  | none =>
    apply Emits.mute
    simp [ChatConfig.voice, hkind]
  | some mobKind =>
    dsimp only
    cases hstrategy : cfg.mobChat.strategyFor chatContextIdle mobKind mob.mobId with
    | none =>
      apply Emits.mute
      simp [ChatConfig.voice, hkind, hstrategy]
    | some strategy =>
      dsimp only
      cases hlines : cfg.mobChat.linesFor chatContextIdle mob.mobId with
      | none =>
        apply Emits.mute
        simp [ChatConfig.voice, hkind, hlines]
      | some lines =>
        dsimp only
        split
        · rename_i hempty
          apply Emits.mute
          simp [ChatConfig.voice, hkind, hlines, List.isEmpty_iff.1 hempty]
        · rename_i hsome
          have hne : lines ≠ [] := mt List.isEmpty_iff.2 hsome
          have hvoice : cfg.voice mob.mobId = some (strategy, lines) := by
            simp [ChatConfig.voice, hkind, hstrategy, hlines, hne]
          have hdelay := randomIntervalMs_mem roll.pause (secsToMs strategy.intervalMinSec)
            (secsToMs strategy.intervalMaxSec)
          cases hstate : mob.chatState with
          | none => exact .notice hvoice hstate hdelay.2
          | some chatState =>
            dsimp only
            split
            · rename_i hearly
              exact .early hstate hearly
            · rename_i hdue
              have hpos : 0 < lines.length := List.length_pos_iff.2 hne
              have hlt := Nat.mod_lt roll.line hpos
              rw [List.getElem?_eq_getElem hlt, Option.map_some]
              exact .speak hvoice hstate (not_lt.1 hdue) hdelay.1 hdelay.2 (List.getElem_mem hlt)

theorem Emits.same {cfg : ChatConfig} {now : Nat} {mob : ChattingMob} {r : ChattingMob × Option Bytes}
    (h : Emits cfg now mob r) : r.1.entity = mob.entity ∧ r.1.mobId = mob.mobId := by
  cases h <;> exact ⟨rfl, rfl⟩

/-! ## What is said, by whom -/

section
variable {cfg : ChatConfig} {w : ChatWorld} {rolls : Entity → ChatRoll}

/-- The mobs of a map are different entities, and so are they that spoke and all that come later. -/
structure ChatWorld.Apart (w : ChatWorld) : Prop where
  distinct : w.mobs.Pairwise fun a b => a.entity ≠ b.entity
  mobs : ∀ mob ∈ w.mobs, mob.entity.raw < w.entities
  said : ∀ s ∈ w.said, s.entity.raw < w.entities

theorem filter_sayings {now : Nat} : ∀ {mobs : List ChattingMob}, mobs.Pairwise (fun a b => a.entity ≠ b.entity) →
    ∀ mob ∈ mobs, (mobs.filterMap fun m => m.saying cfg now (rolls m.entity)).filter (fun s => s.entity = mob.entity) =
      (mob.saying cfg now (rolls mob.entity)).toList
  | [], _, _, hmob => by cases hmob
  | m :: mobs, hdistinct, mob, hmob => by
    have hother : ∀ m : ChattingMob, m.entity ≠ mob.entity → ∀ s ∈ m.saying cfg now (rolls m.entity),
        s.entity ≠ mob.entity := by
      intro m hm s hs
      obtain ⟨message, -, rfl⟩ := Option.map_eq_some_iff.1 hs
      exact hm
    obtain ⟨hhead, htail⟩ := List.pairwise_cons.1 hdistinct
    have hcons : (m :: mobs).filterMap (fun m => m.saying cfg now (rolls m.entity)) =
        (m.saying cfg now (rolls m.entity)).toList ++ mobs.filterMap fun m => m.saying cfg now (rolls m.entity) := by
      cases hsaying : m.saying cfg now (rolls m.entity) <;> simp [hsaying]
    rw [hcons, List.filter_append]
    rcases List.mem_cons.1 hmob with rfl | hmob
    · have hrest : (mobs.filterMap fun m => m.saying cfg now (rolls m.entity)).filter
          (fun s => s.entity = mob.entity) = [] := by
        refine List.filter_eq_nil_iff.2 ?_
        intro s hs
        obtain ⟨m, hm, hsaid⟩ := List.mem_filterMap.1 hs
        simpa using hother m (Ne.symm (hhead m hm)) s hsaid
      have hfirst : (mob.saying cfg now (rolls mob.entity)).toList.filter (fun s => s.entity = mob.entity) =
          (mob.saying cfg now (rolls mob.entity)).toList := by
        refine List.filter_eq_self.2 ?_
        intro s hs
        obtain ⟨message, -, rfl⟩ := Option.map_eq_some_iff.1 (Option.mem_toList.1 hs)
        simp
      rw [hrest, hfirst, List.append_nil]
    · have hfirst : (m.saying cfg now (rolls m.entity)).toList.filter (fun s => s.entity = mob.entity) = [] := by
        refine List.filter_eq_nil_iff.2 ?_
        intro s hs
        simpa using hother m (hhead mob hmob) s (Option.mem_toList.1 hs)
      rw [hfirst, List.nil_append]
      exact filter_sayings htail mob hmob

/-- A round with somebody to hear it appends to the lines of each mob what the mob says. -/
theorem saidBy_emitIdleChat (happart : w.Apart) {mob : ChattingMob} (hmob : mob ∈ w.mobs) (hheard : w.players ≠ []) :
    (emitIdleChat cfg w rolls).saidBy mob.entity =
      w.saidBy mob.entity ++ (mob.saying cfg w.simNow (rolls mob.entity)).toList := by
  unfold emitIdleChat ChatWorld.saidBy
  rw [if_neg (mt List.isEmpty_iff.1 hheard)]
  dsimp only
  rw [List.filter_append, filter_sayings happart.distinct mob hmob]

/-! ## Pauses -/

/-- The shortest pause of the mobs of an id. -/
def ChatConfig.shortestMs (cfg : ChatConfig) (mobId : MobId) : Nat :=
  ((cfg.voice mobId).map fun voice => secsToMs voice.1.intervalMinSec).getD 0

def ChatConfig.longestMs (cfg : ChatConfig) (mobId : MobId) : Nat :=
  ((cfg.voice mobId).map fun voice => max (secsToMs voice.1.intervalMinSec) (secsToMs voice.1.intervalMaxSec)).getD 0

def Said.heldUntil (cfg : ChatConfig) (s : Said) : Nat := satAdd s.saidAt (cfg.shortestMs s.mobId)

def ChattingMob.due (mob : ChattingMob) : Nat := (mob.chatState.map (·.nextEmitAt)).getD 0

/-- A mob keeps its shortest pause after its last line, and is due within its longest. -/
structure Paced (cfg : ChatConfig) (w : ChatWorld) (mob : ChattingMob) : Prop where
  gated : Gated Said.saidAt (Said.heldUntil cfg) w.simNow mob.due (w.saidBy mob.entity)
  soon : mob.due ≤ satAdd w.simNow (cfg.longestMs mob.mobId)

/-- The line is one of the mob's own. -/
def Said.Voiced (cfg : ChatConfig) (s : Said) : Prop :=
  ∃ interval lines, cfg.voice s.mobId = some (interval, lines) ∧ ∃ line ∈ lines, s.message = terminated line.text

/-- What a player was sent is the first of what was said since it came, and the rest waits in the outbox while its
receiver is not found closed. -/
structure Listener.Told (player : Listener) (said : List Said) : Prop where
  joined : player.joined ≤ said.length
  sent : player.sent <+: (said.drop player.joined).map Said.event
  all : player.closed = false → player.sent ++ player.outbox = (said.drop player.joined).map Said.event

structure ChatWorld.Kept (cfg : ChatConfig) (w : ChatWorld) : Prop where
  clock : w.simNow ≤ u64Max
  apart : w.Apart
  paced : ∀ mob ∈ w.mobs, Paced cfg w mob
  spaced : ∀ entity, Spaced Said.saidAt (Said.heldUntil cfg) (w.saidBy entity)
  voiced : ∀ s ∈ w.said, s.saidAt ≤ u64Max ∧ s.Voiced cfg
  told : ∀ player ∈ w.players, player.Told w.said

theorem emitIdleChat_simNow : (emitIdleChat cfg w rolls).simNow = w.simNow := by
  unfold emitIdleChat
  split <;> rfl

theorem Paced.emit {mob : ChattingMob} (happart : w.Apart) (hmob : mob ∈ w.mobs) (hheard : w.players ≠ [])
    (h : Paced cfg w mob) : Paced cfg (emitIdleChat cfg w rolls) (mob.emit cfg w.simNow (rolls mob.entity)).1 := by
  have hsaid : (emitIdleChat cfg w rolls).saidBy mob.entity = _ := saidBy_emitIdleChat happart hmob hheard
  have hemits := emits_emit cfg w.simNow mob (rolls mob.entity)
  have hsame := hemits.same
  unfold ChattingMob.saying at hsaid
  generalize mob.emit cfg w.simNow (rolls mob.entity) = r at hemits hsame hsaid
  rw [← hsame.1] at hsaid
  cases hemits with
  | mute _ | early _ _ =>
    refine ⟨?_, ?_⟩
    · rw [hsaid, emitIdleChat_simNow, Option.map_none, Option.toList_none, List.append_nil]
      exact h.gated
    · rw [emitIdleChat_simNow]
      exact h.soon
  | @notice interval lines delay hvoice hstate hmax =>
    have hdue : mob.due ≤ w.simNow := by
      rw [ChattingMob.due, hstate]
      exact Nat.zero_le _
    refine ⟨?_, ?_⟩
    · rw [hsaid, emitIdleChat_simNow, Option.map_none, Option.toList_none, List.append_nil]
      exact h.gated.reset hdue
    · rw [emitIdleChat_simNow, ChatConfig.longestMs, hvoice]
      exact satAdd_mono le_rfl hmax
  | @speak interval lines delay chatState line hvoice hstate hdue hmin hmax hline =>
    replace hdue : mob.due ≤ w.simNow := by
      rw [ChattingMob.due, hstate]
      exact hdue
    refine ⟨?_, ?_⟩
    · rw [hsaid, emitIdleChat_simNow, Option.map_some, Option.toList_some]
      refine h.gated.fire hdue _ _ rfl ?_
      show satAdd w.simNow (cfg.shortestMs mob.mobId) ≤ max (satAdd w.simNow delay) w.simNow
      rw [ChatConfig.shortestMs, hvoice]
      exact le_max_of_le_left (satAdd_mono le_rfl hmin)
    · rw [emitIdleChat_simNow, ChatConfig.longestMs, hvoice]
      exact satAdd_mono le_rfl hmax

theorem voiced_of_saying {now : Nat} {mob : ChattingMob} {roll : ChatRoll} {s : Said}
    (h : mob.saying cfg now roll = some s) : s.entity = mob.entity ∧ s.saidAt = now ∧ s.Voiced cfg := by
  obtain ⟨message, hmessage, rfl⟩ := Option.map_eq_some_iff.1 h
  refine ⟨rfl, rfl, ?_⟩
  have hemits := emits_emit cfg now mob roll
  generalize mob.emit cfg now roll = r at hmessage hemits
  cases hemits with
  | mute _ | early _ _ | notice _ _ _ => cases hmessage
  | @speak interval lines delay chatState line hvoice hstate hdue hmin hmax hline =>
    cases hmessage
    exact ⟨interval, lines, hvoice, line, hline, rfl⟩

theorem saidBy_of_not_mob {entity : Entity} (h : ∀ mob ∈ w.mobs, mob.entity ≠ entity) :
    (emitIdleChat cfg w rolls).saidBy entity = w.saidBy entity := by
  unfold emitIdleChat ChatWorld.saidBy
  split
  · rfl
  · dsimp only
    rw [List.filter_append, List.append_right_eq_self, List.filter_eq_nil_iff]
    intro s hs
    obtain ⟨mob, hmob, hsaying⟩ := List.mem_filterMap.1 hs
    rw [(voiced_of_saying hsaying).1]
    simpa using h mob hmob

theorem Listener.Told.say {player : Listener} {said : List Said} (h : player.Told said) (emissions : List Said) :
    { player with outbox := player.outbox ++ emissions.map Said.event }.Told (said ++ emissions) := by
  have hlines : ((said ++ emissions).drop player.joined).map Said.event =
      (said.drop player.joined).map Said.event ++ emissions.map Said.event := by
    rw [List.drop_append_of_le_length h.joined, List.map_append]
  refine ⟨h.joined.trans (List.length_append ▸ Nat.le_add_right _ _), ?_, ?_⟩
  · rw [hlines]
    exact h.sent.trans (List.prefix_append _ _)
  · intro hopen
    rw [hlines, ← h.all hopen, List.append_assoc]

theorem sendAll_taken_of_closed {α : Type} {xs : List α} {answers : List TrySend}
    (h : ∀ answer ∈ answers, answer = .closed) :
    (sendAll xs answers).taken = [] := by
  cases xs with
  | nil => rfl
  | cons x xs =>
    cases answers with
    | nil => rfl
    | cons answer answers =>
      rw [h answer List.mem_cons_self]
      rfl

theorem Listener.Told.flush {player : Listener} {said : List Said} {answers : List TrySend} (h : player.Told said)
    (hstays : player.closed → ∀ answer ∈ answers, answer = .closed) : (player.flush answers).Told said := by
  have hparts := sendAll_append player.outbox answers
  refine ⟨h.joined, ?_, ?_⟩
  · show player.sent ++ (sendAll player.outbox answers).taken <+: (said.drop player.joined).map Said.event
    cases hclosed : player.closed with
    | true =>
      rw [sendAll_taken_of_closed (hstays hclosed), List.append_nil]
      exact h.sent
    | false =>
      have hall : player.sent ++ (sendAll player.outbox answers).taken ++ (sendAll player.outbox answers).left =
          (said.drop player.joined).map Said.event := by
        rw [List.append_assoc, hparts]
        exact h.all hclosed
      exact ⟨_, hall⟩
  · intro hopen
    obtain ⟨hbefore, houtcome⟩ := Bool.or_eq_false_iff.1 hopen
    show (player.sent ++ (sendAll player.outbox answers).taken) ++ (if _ then [] else _) = _
    rw [if_neg (of_decide_eq_false houtcome), List.append_assoc, hparts]
    exact h.all hbefore

theorem ChatWorld.Kept.emit (h : w.Kept cfg) : (emitIdleChat cfg w rolls).Kept cfg := by
  by_cases hheard : w.players = []
  · unfold emitIdleChat
    rw [if_pos (List.isEmpty_iff.2 hheard)]
    exact h
  have hworld : emitIdleChat cfg w rolls = { w with
      mobs := w.mobs.map fun mob => (mob.emit cfg w.simNow (rolls mob.entity)).1
      players := w.players.map fun player => { player with
        outbox := player.outbox ++
          (w.mobs.filterMap fun mob => mob.saying cfg w.simNow (rolls mob.entity)).map Said.event }
      said := w.said ++ w.mobs.filterMap fun mob => mob.saying cfg w.simNow (rolls mob.entity) } := by
    unfold emitIdleChat
    rw [if_neg (mt List.isEmpty_iff.1 hheard)]
  have hentity : ∀ mob : ChattingMob, (mob.emit cfg w.simNow (rolls mob.entity)).1.entity = mob.entity :=
    fun mob => (emits_emit cfg w.simNow mob (rolls mob.entity)).same.1
  have hpaced : ∀ mob ∈ (emitIdleChat cfg w rolls).mobs, Paced cfg (emitIdleChat cfg w rolls) mob := by
    intro mob hmob
    rw [hworld] at hmob
    obtain ⟨before, hbefore, rfl⟩ := List.mem_map.1 hmob
    exact (h.paced before hbefore).emit h.apart hbefore hheard
  have hspaced : ∀ entity, Spaced Said.saidAt (Said.heldUntil cfg) ((emitIdleChat cfg w rolls).saidBy entity) := by
    intro entity
    by_cases hmob : ∃ mob ∈ w.mobs, mob.entity = entity
    · obtain ⟨mob, hmob, rfl⟩ := hmob
      have hafter : Paced cfg (emitIdleChat cfg w rolls) _ := (h.paced mob hmob).emit h.apart hmob hheard
      have hgated := hafter.gated.spaced
      rwa [hentity] at hgated
    · push Not at hmob
      rw [saidBy_of_not_mob hmob]
      exact h.spaced entity
  rw [hworld] at hpaced hspaced ⊢
  refine ⟨h.clock, ⟨?_, ?_, ?_⟩, hpaced, hspaced, ?_, ?_⟩
  · refine List.pairwise_map.2 (h.apart.distinct.imp ?_)
    intro a b hab
    rwa [hentity, hentity]
  · intro mob hmob
    obtain ⟨before, hbefore, rfl⟩ := List.mem_map.1 hmob
    rw [hentity]
    exact h.apart.mobs before hbefore
  · intro s hs
    rcases List.mem_append.1 hs with hs | hs
    · exact h.apart.said s hs
    · obtain ⟨mob, hmob, hsaying⟩ := List.mem_filterMap.1 hs
      rw [(voiced_of_saying hsaying).1]
      exact h.apart.mobs mob hmob
  · intro s hs
    rcases List.mem_append.1 hs with hs | hs
    · exact h.voiced s hs
    · obtain ⟨mob, -, hsaying⟩ := List.mem_filterMap.1 hs
      obtain ⟨-, hat, hvoiced⟩ := voiced_of_saying hsaying
      exact ⟨hat.trans_le h.clock, hvoiced⟩
  · intro player hplayer
    obtain ⟨before, hbefore, rfl⟩ := List.mem_map.1 hplayer
    exact (h.told before hbefore).say _

theorem ChatWorld.Kept.step {e : ChatStep} {w' : ChatWorld} (h : w.Kept cfg) (hs : w.step cfg e = some w') :
    w'.Kept cfg := by
  cases e with
  | tick now =>
    simp only [ChatWorld.step] at hs
    split at hs
    · rename_i hcond
      cases hs
      refine ⟨hcond.2, ⟨h.apart.distinct, h.apart.mobs, h.apart.said⟩, ?_, h.spaced, h.voiced, h.told⟩
      intro mob hmob
      obtain ⟨hgated, hsoon⟩ := h.paced mob hmob
      exact ⟨hgated.wait hcond.1, hsoon.trans (satAdd_mono hcond.1 le_rfl)⟩
    · cases hs
  | spawn mobId netId =>
    cases hs
    have hfresh : ∀ s ∈ w.said, s.entity ≠ ⟨w.entities⟩ := by
      intro s hs heq
      have hlt := h.apart.said s hs
      rw [heq] at hlt
      exact lt_irrefl _ hlt
    refine ⟨h.clock, ⟨?_, ?_, ?_⟩, ?_, h.spaced, h.voiced, h.told⟩
    · refine List.pairwise_append.2 ⟨h.apart.distinct, List.pairwise_singleton _ _, ?_⟩
      intro mob hmob new hnew heq
      rw [List.mem_singleton.1 hnew] at heq
      have hlt := h.apart.mobs mob hmob
      rw [heq] at hlt
      exact lt_irrefl _ hlt
    · intro mob hmob
      rcases List.mem_append.1 hmob with hmob | hmob
      · exact Nat.lt_succ_of_lt (h.apart.mobs mob hmob)
      · rw [List.mem_singleton.1 hmob]
        exact Nat.lt_succ_self _
    · intro s hs
      exact Nat.lt_succ_of_lt (h.apart.said s hs)
    · intro mob hmob
      rcases List.mem_append.1 hmob with hmob | hmob
      · obtain ⟨hgated, hsoon⟩ := h.paced mob hmob
        exact ⟨hgated, hsoon⟩
      · rw [List.mem_singleton.1 hmob]
        refine ⟨?_, Nat.zero_le _⟩
        show Gated _ _ _ _ (w.said.filter _)
        rw [List.filter_eq_nil_iff.2 (fun s hs => by simpa using hfresh s hs)]
        exact .nil
  | despawn entity =>
    cases hs
    refine ⟨h.clock, ⟨h.apart.distinct.filter _, ?_, h.apart.said⟩, ?_, h.spaced, h.voiced, h.told⟩
    · intro mob hmob
      exact h.apart.mobs mob (List.mem_filter.1 hmob).1
    · intro mob hmob
      obtain ⟨hgated, hsoon⟩ := h.paced mob (List.mem_filter.1 hmob).1
      exact ⟨hgated, hsoon⟩
  | enter =>
    cases hs
    refine ⟨h.clock, ⟨h.apart.distinct, ?_, ?_⟩, ?_, h.spaced, h.voiced, ?_⟩
    · intro mob hmob
      exact Nat.lt_succ_of_lt (h.apart.mobs mob hmob)
    · intro s hs
      exact Nat.lt_succ_of_lt (h.apart.said s hs)
    · intro mob hmob
      obtain ⟨hgated, hsoon⟩ := h.paced mob hmob
      exact ⟨hgated, hsoon⟩
    · intro player hplayer
      rcases List.mem_append.1 hplayer with hplayer | hplayer
      · exact h.told player hplayer
      · rw [List.mem_singleton.1 hplayer]
        exact ⟨le_rfl, List.nil_prefix, fun _ => by simp⟩
  | leave entity =>
    cases hs
    refine ⟨h.clock, ⟨h.apart.distinct, h.apart.mobs, h.apart.said⟩, ?_, h.spaced, h.voiced, ?_⟩
    · intro mob hmob
      obtain ⟨hgated, hsoon⟩ := h.paced mob hmob
      exact ⟨hgated, hsoon⟩
    · intro player hplayer
      exact h.told player (List.mem_filter.1 hplayer).1
  | emit rolls =>
    cases hs
    exact h.emit
  | flush answers =>
    simp only [ChatWorld.step] at hs
    split at hs
    · rename_i hstays
      cases hs
      refine ⟨h.clock, ⟨h.apart.distinct, h.apart.mobs, h.apart.said⟩, ?_, h.spaced, h.voiced, ?_⟩
      · intro mob hmob
        obtain ⟨hgated, hsoon⟩ := h.paced mob hmob
        exact ⟨hgated, hsoon⟩
      · intro player hplayer
        obtain ⟨before, hbefore, rfl⟩ := List.mem_map.1 hplayer
        exact (h.told before hbefore).flush (hstays before hbefore)
    · cases hs

theorem ChatWorld.kept_start {now : Nat} (hclock : now ≤ u64Max) : (ChatWorld.start now).Kept cfg where
  clock := hclock
  apart := ⟨.nil, fun _ h => (by cases h), fun _ h => (by cases h)⟩
  paced _ h := by cases h
  spaced _ := List.isChain_nil
  voiced _ h := by cases h
  told _ h := by cases h

theorem ChatWorld.kept_of_run {now : Nat} {es : List ChatStep} (hclock : now ≤ u64Max)
    (hrun : run (ChatWorld.step cfg) (.start now) es = some w) : w.Kept cfg :=
  run_inv (fun _ _ _ h hs => h.step hs) (kept_start hclock) hrun

/-! ## Silence -/

/-- The mob is due by a time, or it has spoken after the first lines. -/
structure DueBy (due said : Nat) (entity : Entity) (mobId : MobId) (w : ChatWorld) : Prop where
  old : entity.raw < w.entities
  after : said ≤ w.said.length
  mob : ∀ mob ∈ w.mobs, mob.entity = entity → mob.mobId = mobId ∧
    ((∃ chatState, mob.chatState = some chatState ∧ chatState.nextEmitAt ≤ due) ∨ ∃ s ∈ w.said.drop said,
      s.entity = entity)

variable {due said : Nat} {entity : Entity} {mobId : MobId}

theorem mem_said_emitIdleChat {mob : ChattingMob} {s : Said} (hmob : mob ∈ w.mobs) (hheard : w.players ≠ [])
    (hafter : said ≤ w.said.length) (hsaying : mob.saying cfg w.simNow (rolls mob.entity) = some s) :
    s ∈ (emitIdleChat cfg w rolls).said.drop said := by
  unfold emitIdleChat
  rw [if_neg (mt List.isEmpty_iff.1 hheard)]
  dsimp only
  rw [List.drop_append_of_le_length hafter]
  exact List.mem_append_right _ (List.mem_filterMap.2 ⟨mob, hmob, hsaying⟩)

theorem drop_said_emitIdleChat {s : Said} (hafter : said ≤ w.said.length) (hs : s ∈ w.said.drop said) :
    s ∈ (emitIdleChat cfg w rolls).said.drop said := by
  unfold emitIdleChat
  split
  · exact hs
  · dsimp only
    rw [List.drop_append_of_le_length hafter]
    exact List.mem_append_left _ hs

/-- What a round of a map leaves of a mob. -/
theorem mem_mobs_emitIdleChat {mob : ChattingMob} (h : mob ∈ (emitIdleChat cfg w rolls).mobs) :
    (w.players = [] ∧ mob ∈ w.mobs) ∨
      w.players ≠ [] ∧ ∃ before ∈ w.mobs, mob = (before.emit cfg w.simNow (rolls before.entity)).1 := by
  unfold emitIdleChat at h
  split at h
  · rename_i hempty
    exact .inl ⟨List.isEmpty_iff.1 hempty, h⟩
  · rename_i hheard
    obtain ⟨before, hbefore, rfl⟩ := List.mem_map.1 h
    exact .inr ⟨mt List.isEmpty_iff.2 hheard, before, hbefore, rfl⟩

theorem emitIdleChat_entities : (emitIdleChat cfg w rolls).entities = w.entities := by
  unfold emitIdleChat
  split <;> rfl

theorem length_said_emitIdleChat : w.said.length ≤ (emitIdleChat cfg w rolls).said.length := by
  unfold emitIdleChat
  split
  · exact le_rfl
  · exact List.length_append ▸ Nat.le_add_right _ _

theorem DueBy.emit (h : DueBy due said entity mobId w) : DueBy due said entity mobId (emitIdleChat cfg w rolls) := by
  refine ⟨?_, h.after.trans length_said_emitIdleChat, ?_⟩
  · rw [emitIdleChat_entities]
    exact h.old
  intro mob hmob hentity
  rcases mem_mobs_emitIdleChat hmob with ⟨-, hmob⟩ | ⟨hheard, before, hbefore, rfl⟩
  · obtain ⟨hid, hstate | ⟨s, hs, hsentity⟩⟩ := h.mob mob hmob hentity
    · exact ⟨hid, .inl hstate⟩
    · exact ⟨hid, .inr ⟨s, drop_said_emitIdleChat h.after hs, hsentity⟩⟩
  · have hemits := emits_emit cfg w.simNow before (rolls before.entity)
    rw [hemits.same.1] at hentity
    obtain ⟨hid, hdue⟩ := h.mob before hbefore hentity
    refine ⟨hemits.same.2.trans hid, ?_⟩
    rcases hdue with ⟨chatState, hstate, hle⟩ | ⟨s, hs, hsentity⟩
    · cases hsaying : before.saying cfg w.simNow (rolls before.entity) with
      | some s =>
        refine .inr ⟨s, mem_said_emitIdleChat hbefore hheard h.after hsaying, ?_⟩
        exact (voiced_of_saying hsaying).1.trans hentity
      | none =>
        -- a mob with a state that says nothing keeps it
        refine .inl ⟨chatState, ?_, hle⟩
        replace hsaying := Option.map_eq_none_iff.1 hsaying
        generalize before.emit cfg w.simNow (rolls before.entity) = r at hemits hsaying
        cases hemits with
        | mute _ | early _ _ => exact hstate
        | notice _ hnone _ =>
          rw [hstate] at hnone
          cases hnone
        | speak _ _ _ _ _ _ => cases hsaying
    · exact .inr ⟨s, drop_said_emitIdleChat h.after hs, hsentity⟩

theorem DueBy.step {e : ChatStep} {w' : ChatWorld} (h : DueBy due said entity mobId w) (hs : w.step cfg e = some w') :
    DueBy due said entity mobId w' := by
  cases e with
  | tick now =>
    simp only [ChatWorld.step] at hs
    split at hs
    · cases hs
      exact ⟨h.old, h.after, h.mob⟩
    · cases hs
  | spawn _ _ =>
    cases hs
    refine ⟨Nat.lt_succ_of_lt h.old, h.after, ?_⟩
    intro mob hmob hentity
    rcases List.mem_append.1 hmob with hmob | hmob
    · exact h.mob mob hmob hentity
    · rw [List.mem_singleton.1 hmob] at hentity
      have hlt := h.old
      rw [← hentity] at hlt
      exact absurd hlt (lt_irrefl _)
  | despawn _ =>
    cases hs
    exact ⟨h.old, h.after, fun mob hmob => h.mob mob (List.mem_filter.1 hmob).1⟩
  | enter =>
    cases hs
    exact ⟨Nat.lt_succ_of_lt h.old, h.after, h.mob⟩
  | leave _ =>
    cases hs
    exact ⟨h.old, h.after, h.mob⟩
  | flush answers =>
    simp only [ChatWorld.step] at hs
    split at hs
    · cases hs
      exact ⟨h.old, h.after, h.mob⟩
    · cases hs
  | emit rolls =>
    cases hs
    exact h.emit

/-- A round with somebody to hear it leaves every mob that can speak due within its longest pause. -/
theorem ChatWorld.Kept.dueBy (h : w.Kept cfg) {mob : ChattingMob} (hmob : mob ∈ w.mobs) (hheard : w.players ≠ [])
    (hvoice : (cfg.voice mob.mobId).isSome) :
    DueBy (satAdd w.simNow (cfg.longestMs mob.mobId)) (emitIdleChat cfg w rolls).said.length mob.entity mob.mobId
      (emitIdleChat cfg w rolls) := by
  refine ⟨?_, le_rfl, ?_⟩
  · rw [emitIdleChat_entities]
    exact h.apart.mobs mob hmob
  intro other hother hentity
  rcases mem_mobs_emitIdleChat hother with ⟨hnone, -⟩ | ⟨-, before, hbefore, rfl⟩
  · exact absurd hnone hheard
  have hemits := emits_emit cfg w.simNow before (rolls before.entity)
  rw [hemits.same.1] at hentity
  have hnodup : (w.mobs.map ChattingMob.entity).Nodup := List.pairwise_map.2 h.apart.distinct
  obtain rfl : before = mob := List.inj_on_of_nodup_map hnodup hbefore hmob hentity
  have hpaced : Paced cfg (emitIdleChat cfg w rolls) _ := (h.paced before hbefore).emit h.apart hbefore hheard
  have hafter := hpaced.soon
  rw [emitIdleChat_simNow, hemits.same.2] at hafter
  refine ⟨hemits.same.2, .inl ?_⟩
  generalize before.emit cfg w.simNow (rolls before.entity) = r at hemits hafter
  cases hemits with
  | mute hmute =>
    rw [hmute] at hvoice
    cases hvoice
  | early hstate _ =>
    rw [ChattingMob.due, hstate] at hafter
    exact ⟨_, hstate, hafter⟩
  | notice _ _ _ | speak _ _ _ _ _ _ => exact ⟨_, rfl, hafter⟩

/-- The next round that is heard from then on has the mob speak, if it has not. -/
theorem DueBy.speaks (h : DueBy due said entity mobId w) (hdue : due ≤ w.simNow)
    (hthere : ∃ mob ∈ w.mobs, mob.entity = entity) (hheard : w.players ≠ []) (hvoice : (cfg.voice mobId).isSome) :
    ∃ s ∈ (emitIdleChat cfg w rolls).said.drop said, s.entity = entity := by
  obtain ⟨mob, hmob, rfl⟩ := hthere
  obtain ⟨rfl, ⟨chatState, hstate, hle⟩ | ⟨s, hs, hsentity⟩⟩ := h.mob mob hmob rfl
  · have hemits := emits_emit cfg w.simNow mob (rolls mob.entity)
    have hspeaks : ∃ s, mob.saying cfg w.simNow (rolls mob.entity) = some s := by
      unfold ChattingMob.saying
      generalize mob.emit cfg w.simNow (rolls mob.entity) = r at hemits
      cases hemits with
      | mute hmute =>
        rw [hmute] at hvoice
        cases hvoice
      | early hstate' hearly =>
        cases hstate.symm.trans hstate'
        omega
      | notice _ hnone _ => cases hstate.symm.trans hnone
      | speak _ _ _ _ _ _ => exact ⟨_, rfl⟩
    obtain ⟨s, hs⟩ := hspeaks
    exact ⟨s, mem_said_emitIdleChat hmob hheard h.after hs, (voiced_of_saying hs).1⟩
  · exact ⟨s, drop_said_emitIdleChat h.after hs, hsentity⟩

end

/-! ## Over the content -/

section
variable {catalog : ChatCatalog} {mobs : MobId → Option MobKind} {now : Nat} {es : List ChatStep} {w : ChatWorld}

theorem voice_eq_some_iff {mobId : MobId} {interval : MobChatStrategyInterval} {lines : List MobChatLine} :
    ChatConfig.voice ⟨mobs, buildMobChatContent catalog⟩ mobId = some (interval, lines) ↔
      ∃ mobKind, mobs mobId = some mobKind ∧ catalog.intervalOf chatContextIdle mobKind mobId = some interval ∧
        catalog.linesOf chatContextIdle mobId = lines ∧ lines ≠ [] := by
  have hkept := linesFor_buildMobChatContent chatContextIdle mobId catalog
  unfold ChatConfig.voice
  dsimp only
  cases hkind : mobs mobId with
  | none => simp
  | some mobKind =>
    rw [Option.bind_some, strategyFor_buildMobChatContent]
    cases hinterval : catalog.intervalOf chatContextIdle mobKind mobId with
    | none => simp [hinterval]
    | some known =>
      cases hlines : (buildMobChatContent catalog).linesFor chatContextIdle mobId with
      | none =>
        rw [hlines, Option.getD_none] at hkept
        simp [← hkept]
      | some kept =>
        rw [hlines, Option.getD_some] at hkept
        subst hkept
        by_cases hempty : catalog.linesOf chatContextIdle mobId = []
        · simp [hempty]
        · simp only [Option.bind_some, List.isEmpty_iff, hempty, if_false, Option.some.injEq, Prod.mk.injEq,
            exists_eq_left', hinterval]
          constructor
          · rintro ⟨rfl, rfl⟩
            exact ⟨rfl, rfl, hempty⟩
          · rintro ⟨rfl, rfl, -⟩
            exact ⟨rfl, rfl⟩

/-- Two lines of one mob lie at least its shortest pause apart, which the last usable row for it or else for its kind
says and which is a second at least; and what a mob says is one of its own lines. -/
theorem lines_keep_their_pause (hclock : now ≤ u64Max)
    (hrun : run (ChatWorld.step ⟨mobs, buildMobChatContent catalog⟩) (.start now) es = some w) :
    (∀ entity, (w.saidBy entity).Pairwise fun a b => ∃ mobKind interval, mobs a.mobId = some mobKind ∧
      catalog.intervalOf chatContextIdle mobKind a.mobId = some interval ∧ 1 ≤ interval.intervalMinSec ∧
      satAdd a.saidAt (secsToMs interval.intervalMinSec) ≤ b.saidAt) ∧
    ∀ s ∈ w.said, ∃ line ∈ catalog.linesOf chatContextIdle s.mobId, s.message = terminated line.text := by
  have hkept := ChatWorld.kept_of_run hclock hrun
  constructor
  · intro entity
    have hpairs : (w.saidBy entity).Pairwise fun a b => a.heldUntil ⟨mobs, buildMobChatContent catalog⟩ ≤ b.saidAt := by
      refine (hkept.spaced entity).pairwise ?_
      intro s hs
      have hclocked := (hkept.voiced s (List.mem_filter.1 hs).1).1
      unfold Said.heldUntil satAdd
      omega
    refine hpairs.imp_of_mem ?_
    intro a b ha _ hle
    obtain ⟨-, interval, lines, hvoice, -⟩ := hkept.voiced a (List.mem_filter.1 ha).1
    obtain ⟨mobKind, hkind, hinterval, -, -⟩ := voice_eq_some_iff.1 hvoice
    refine ⟨mobKind, interval, hkind, hinterval, (intervalOf_spec hinterval).1, ?_⟩
    rw [Said.heldUntil, ChatConfig.shortestMs, hvoice] at hle
    exact hle
  · intro s hs
    obtain ⟨-, interval, lines, hvoice, line, hline, hmessage⟩ := hkept.voiced s hs
    obtain ⟨mobKind, -, -, rfl, -⟩ := voice_eq_some_iff.1 hvoice
    exact ⟨line, hline, hmessage⟩

/-- From any round that is heard to any other that is heard its longest pause later, a mob that has lines speaks:
between the two or in the later one. -/
theorem silence_keeps_to_longest_pause (hclock : now ≤ u64Max)
    (hrun : run (ChatWorld.step ⟨mobs, buildMobChatContent catalog⟩) (.start now) es = some w) {mob : ChattingMob}
    (hmob : mob ∈ w.mobs) {mobKind : MobKind} (hkind : mobs mob.mobId = some mobKind)
    {interval : MobChatStrategyInterval}
    (hinterval : catalog.intervalOf chatContextIdle mobKind mob.mobId = some interval)
    (hlines : catalog.linesOf chatContextIdle mob.mobId ≠ []) (hheard : w.players ≠ []) (rolls : Entity → ChatRoll)
    {later : List ChatStep} {w' : ChatWorld}
    (hlater : run (ChatWorld.step ⟨mobs, buildMobChatContent catalog⟩)
      (emitIdleChat ⟨mobs, buildMobChatContent catalog⟩ w rolls) later = some w')
    (hthere : ∃ mob' ∈ w'.mobs, mob'.entity = mob.entity) (hheard' : w'.players ≠ [])
    (hlong : satAdd w.simNow (secsToMs interval.intervalMaxSec) ≤ w'.simNow) (rolls' : Entity → ChatRoll) :
    ∃ s ∈ (emitIdleChat ⟨mobs, buildMobChatContent catalog⟩ w' rolls').said.drop
        (emitIdleChat ⟨mobs, buildMobChatContent catalog⟩ w rolls).said.length, s.entity = mob.entity := by
  have hkept := ChatWorld.kept_of_run hclock hrun
  have hvoice := voice_eq_some_iff.2 ⟨mobKind, hkind, hinterval, rfl, hlines⟩
  have hsome : (ChatConfig.voice ⟨mobs, buildMobChatContent catalog⟩ mob.mobId).isSome := by
    rw [hvoice]
    rfl
  have hdue := run_inv (fun _ _ _ h hs => DueBy.step h hs) (hkept.dueBy hmob hheard hsome) hlater
  apply hdue.speaks ?_ hthere hheard' hsome
  obtain ⟨-, hle, -⟩ := intervalOf_spec hinterval
  have hmax : max (secsToMs interval.intervalMinSec) (secsToMs interval.intervalMaxSec) =
      secsToMs interval.intervalMaxSec := by
    unfold secsToMs
    omega
  rw [ChatConfig.longestMs, hvoice, Option.map_some, Option.getD_some, hmax]
  exact hlong

/-- A player is sent the lines that are said while it is on the map, once and in order, and no other; and until a flush
finds its receiver closed, those that it was not sent wait in its outbox. -/
theorem listeners_are_told_all (hclock : now ≤ u64Max)
    (hrun : run (ChatWorld.step ⟨mobs, buildMobChatContent catalog⟩) (.start now) es = some w) :
    ∀ player ∈ w.players, player.sent <+: (w.said.drop player.joined).map Said.event ∧
      (player.closed = false → player.sent ++ player.outbox = (w.said.drop player.joined).map Said.event) := by
  intro player hplayer
  have htold := (ChatWorld.kept_of_run hclock hrun).told player hplayer
  exact ⟨htold.sent, htold.all⟩

end

/-! ## A dog and a traveller -/

/-- Ten to twenty seconds for the monsters, and one thing that a dog says. -/
def dogCatalog : ChatCatalog where
  mobChatStrategies := [⟨chatContextIdle, some .monster, none, 10, 20⟩, ⟨chatContextIdle, none, some 101, 0, 20⟩]
  mobChatLines := [⟨101, chatContextIdle, "dog_1".toList, "Woof".toList⟩,
    ⟨101, chatContextIdle, "dog_2".toList, " ".toList⟩]

def dogKinds (mobId : MobId) : Option MobKind := if mobId = ⟨101⟩ then some .monster else none

def firstRoll (_ : Entity) : ChatRoll := ⟨0, 0⟩

/-- The dog is noticed, speaks as soon as it may and once more. The traveller is sent what it said first; then the
channel is full. -/
def dogSteps : List ChatStep :=
  [.spawn ⟨101⟩ ⟨7⟩, .enter, .emit firstRoll, .tick 10000, .emit firstRoll, .flush fun _ => [.ok], .tick 15000,
    .emit firstRoll,
    .tick 21000, .emit firstRoll, .flush fun _ => [.full]]

theorem run_dogSteps :
    ∃ w, run (ChatWorld.step ⟨dogKinds, buildMobChatContent dogCatalog⟩) (.start 0) dogSteps = some w ∧
    w.said.map (fun s => (s.entity.raw, s.saidAt)) = [(0, 10000), (0, 21000)] ∧
    w.players.map (fun player => (player.sent.length, player.outbox.length, player.closed)) = [(1, 1, false)] := by
  have h : (run (ChatWorld.step ⟨dogKinds, buildMobChatContent dogCatalog⟩) (.start 0) dogSteps).map (fun w =>
      (w.said.map (fun s => (s.entity.raw, s.saidAt)),
        w.players.map (fun player => (player.sent.length, player.outbox.length, player.closed)))) =
      some ([(0, 10000), (0, 21000)], [(1, 1, false)]) := by decide +kernel
  obtain ⟨w, hw, hseen⟩ := Option.map_eq_some_iff.1 h
  exact ⟨w, hw, congrArg Prod.fst hseen, congrArg Prod.snd hseen⟩

theorem lines_keep_their_pause_dog : ∃ w : ChatWorld, w.said.map (·.saidAt) = [10000, 21000] ∧
    (∀ entity, (w.saidBy entity).Pairwise fun a b => ∃ mobKind interval, dogKinds a.mobId = some mobKind ∧
      dogCatalog.intervalOf chatContextIdle mobKind a.mobId = some interval ∧ 1 ≤ interval.intervalMinSec ∧
      satAdd a.saidAt (secsToMs interval.intervalMinSec) ≤ b.saidAt) ∧
    ∀ s ∈ w.said, ∃ line ∈ dogCatalog.linesOf chatContextIdle s.mobId, s.message = terminated line.text := by
  obtain ⟨w, hw, hsaid, -⟩ := run_dogSteps
  refine ⟨w, ?_, lines_keep_their_pause (Nat.zero_le _) hw⟩
  have htimes := congrArg (List.map Prod.snd) hsaid
  rwa [List.map_map] at htimes

theorem listeners_are_told_all_dog : ∃ w : ChatWorld,
    w.players.map (fun player => (player.sent.length, player.outbox.length, player.closed)) = [(1, 1, false)] ∧
    ∀ player ∈ w.players, player.sent <+: (w.said.drop player.joined).map Said.event ∧
      (player.closed = false → player.sent ++ player.outbox = (w.said.drop player.joined).map Said.event) := by
  obtain ⟨w, hw, -, htold⟩ := run_dogSteps
  exact ⟨w, htold, listeners_are_told_all (Nat.zero_le _) hw⟩

/-- The meadow with the dog and the traveller, and the same twenty seconds after the dog was noticed. -/
def dogMeadow : ChatWorld := ⟨0, 2, [⟨⟨0⟩, ⟨101⟩, ⟨7⟩, none⟩], [⟨⟨1⟩, [], [], 0, false⟩], []⟩

def dogMeadowLater : ChatWorld :=
  { emitIdleChat ⟨dogKinds, buildMobChatContent dogCatalog⟩ dogMeadow firstRoll with simNow := 20000 }

theorem silence_keeps_to_longest_pause_dog :
    ∃ s ∈ (emitIdleChat ⟨dogKinds, buildMobChatContent dogCatalog⟩ dogMeadowLater firstRoll).said.drop
        (emitIdleChat ⟨dogKinds, buildMobChatContent dogCatalog⟩ dogMeadow firstRoll).said.length, s.entity = ⟨0⟩ := by
  have hrun : run (ChatWorld.step ⟨dogKinds, buildMobChatContent dogCatalog⟩) (.start 0) [.spawn ⟨101⟩ ⟨7⟩, .enter] =
      some dogMeadow := rfl
  have hlater : run (ChatWorld.step ⟨dogKinds, buildMobChatContent dogCatalog⟩)
      (emitIdleChat ⟨dogKinds, buildMobChatContent dogCatalog⟩ dogMeadow firstRoll) [.tick 20000] =
        some dogMeadowLater := rfl
  have hinterval : dogCatalog.intervalOf chatContextIdle .monster ⟨101⟩ = some ⟨10, 20⟩ := by decide +kernel
  have hlines : dogCatalog.linesOf chatContextIdle ⟨101⟩ ≠ [] := by decide +kernel
  exact silence_keeps_to_longest_pause (Nat.zero_le _) hrun (List.mem_singleton.2 rfl) rfl hinterval hlines
    (List.cons_ne_nil _ _) firstRoll hlater (by decide +kernel) (List.cons_ne_nil _ _) (by decide +kernel) firstRoll

end Zohar.Mob
