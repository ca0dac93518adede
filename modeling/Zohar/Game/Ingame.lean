/-
The in-game phase of the connections on one map, from `prepare_ingame`, `drive_ingame` and `finalize_ingame_result` of
zohar-gamesrv/src/handlers/ingame.rs. A player that enters again displaces its old entity. The old connection is not
told: its intents go to whatever entity the player has, and a closed event channel is to its loop what an empty one is.
-/
import Zohar.Game.Session
import Zohar.Sim.Ingress
import Zohar.Lib.Run

namespace Zohar.Game

open Zohar.Lib Zohar.Net Zohar.Replication Zohar.Ingress

/-! ## One turn of the loop -/

def mapEventBurstLimit : Nat := 32

/-- Only an event that asks for a relocation can end the phase. -/
def mapEventEnds (relocated : Bool) : PlayerEvent → Bool
  | .other .portalEntered => relocated
  | .other .restartTown => relocated
  | _ => false

/-- What is left in the channel, and whether the phase is over. -/
def drainOutboundBurst (relocated : Bool) : Nat → List PlayerEvent → List PlayerEvent × Bool
  | 0, queue => (queue, false)
  | _ + 1, [] => ([], false)
  | maxEvents + 1, event :: queue =>
    if mapEventEnds relocated event then (queue, true) else drainOutboundBurst relocated maxEvents queue

/-- `entered`: the map has taken the `EnterMsg`. -/
structure InGameConn where
  playerId : PlayerId
  session : SessionTracker
  entered : Bool
  ended : Bool

/-- What the handler of a packet sends to the map. -/
inductive ToMap where
  | clientIntent (intent : ClientIntent)
  | capturePlayerSnapshot

/-- The branches of the `select!`. -/
inductive Branch where
  | serverDrain
  | heartbeat (now : Instant)
  | packet (now : Instant) (sent : List ToMap) (outcome : PacketOutcome)
  | connectionClosed
  | outbound

/-- `relocated`: a relocation that an event asks for ends the phase. `burstFails`, `effectsFail`: the packets of the
first burst, and those of the branch, cannot be sent. `handoff`: an end of this turn is a handoff. -/
structure Turn where
  relocated : Bool := false
  burstFails : Bool := false
  effectsFail : Bool := false
  handoff : Bool := false
  branch : Branch

/-- The branch after the first burst. `recv` is ready when an event is there or none can come any more, and in the
second case the loop goes on. -/
def InGameConn.select (c : InGameConn) (channel : EventChannel) (turn : Turn) :
    Option (InGameConn × EventChannel × List ToMap) :=
  match turn.branch with
  | .serverDrain => some ({ c with ended := true }, channel, [])
  | .heartbeat now => some ({ c with ended := c.session.onTick now = some .timedOut }, channel, [])
  | .packet now sent outcome =>
    some ({ c with session := c.session.markRx now, ended := outcome ≠ .handled }, channel, sent)
  | .connectionClosed => some ({ c with ended := true }, channel, [])
  | .outbound =>
    match channel.queue with
    | _ :: _ =>
      let (queue, done) := drainOutboundBurst turn.relocated mapEventBurstLimit channel.queue
      some ({ c with ended := done }, { channel with queue }, [])
    | [] => if channel.closed then some (c, channel, []) else none

def InGameConn.iterate (c : InGameConn) (channel : EventChannel) (turn : Turn) :
    Option (InGameConn × EventChannel × List ToMap) :=
  let (queue, done) := drainOutboundBurst turn.relocated mapEventBurstLimit channel.queue
  let channel := { channel with queue }
  if done || turn.burstFails then some ({ c with ended := true }, channel, [])
  else (c.select channel turn).map fun r => ({ r.1 with ended := r.1.ended || turn.effectsFail }, r.2)

/-! ## Connections and map -/

variable {ρ : Type}

/-- `inbound` is what the map has not handled yet, each event with the connection that sent it. A connection in game
goes by the net id it has reserved. -/
structure InGameCore (ρ : Type) where
  map : MapRuntime ρ
  inbound : List (Option EntityId × InboundEvent ρ)
  conns : EntityId → Option InGameConn

def InGameCore.start : InGameCore ρ := ⟨⟨fun _ => none, fun _ => none, fun _ => ⟨[], false⟩⟩, [], fun _ => none⟩

inductive InGameEvent (ρ : Type) where
  | enter (netId : EntityId) (playerId : PlayerId) (session : SessionTracker) (others : ρ) (flushed : List PlayerEvent)
  | enterFails (netId : EntityId) (playerId : PlayerId) (session : SessionTracker)
  | iterate (conn : EntityId) (turn : Turn)
  | handle
  | simulate (f : MapRuntime.Simulation ρ)
  | shout (push : ρ → ρ)

def ToMap.inbound (playerId : PlayerId) (netId : EntityId) : ToMap → InboundEvent ρ
  | .clientIntent intent => .clientIntent playerId intent
  | .capturePlayerSnapshot => .capturePlayerSnapshot playerId netId

/-- The `LeaveMsg` of a connection that has entered. -/
def InGameConn.leave (c : InGameConn) (netId : EntityId) (handoff : Bool) : List (InboundEvent ρ) :=
  if c.entered then
    if handoff then [.playerLeave c.playerId netId] else [.playerLeaveAndSnapshot c.playerId netId]
  else []

/-- A frame of the map handles what has come in and simulates. -/
def inGameStep (s : InGameCore ρ) : InGameEvent ρ → Option (InGameCore ρ)
  | .enter netId playerId session others flushed =>
    if (s.conns netId).isSome then none
    else some
      { map := { s.map with channels := Function.update s.map.channels netId ⟨[], false⟩ }
        inbound := s.inbound ++ [(some netId, .playerEnter playerId netId others flushed)]
        conns := Function.update s.conns netId (some ⟨playerId, session, true, false⟩) }
  | .enterFails netId playerId session =>
    if (s.conns netId).isSome then none
    else some
      { s with
        map := { s.map with channels := Function.update s.map.channels netId ⟨[], true⟩ }
        conns := Function.update s.conns netId (some ⟨playerId, session, false, false⟩) }
  | .iterate conn turn =>
    match s.conns conn with
    | some c =>
      if c.ended then none
      else
        (c.iterate (s.map.channels conn) turn).map fun (c', channel, sent) =>
          { map := { s.map with channels := Function.update s.map.channels conn channel }
            inbound := s.inbound ++ (sent.map (ToMap.inbound c.playerId conn) ++
              if c'.ended then c.leave conn turn.handoff else []).map fun event => (some conn, event)
            conns := Function.update s.conns conn (some c') }
    | none => none
  | .handle =>
    match s.inbound with
    | (_, event) :: rest => some { s with map := s.map.handleInbound event, inbound := rest }
    | [] => none
  | .simulate f => some { s with map := s.map.simulate f }
  | .shout push => some { s with inbound := s.inbound ++ [(none, .globalShout push)] }

/-! ## A displaced connection -/

/-- The map once everything that is under way has been handled. -/
def InGameCore.settled (s : InGameCore ρ) : MapRuntime ρ :=
  (s.inbound.map Prod.snd).foldl MapRuntime.handleInbound s.map

/-- The iteration finds the channel of the connection closed and, after its first burst, empty. -/
def FindsClosed (s : InGameCore ρ) (conn : EntityId) (turn : Turn) : Prop :=
  (s.map.channels conn).closed = true ∧
    drainOutboundBurst turn.relocated mapEventBurstLimit (s.map.channels conn).queue = ([], false)

/-- What a step shows of the first connection of a player after the second has entered. -/
structure Inert (first second : EntityId) (s : InGameCore ρ) (event : InGameEvent ρ) (s' : InGameCore ρ) : Prop where
  /-- The second's entry takes the first's entity off the map and closes its channel. -/
  displaced : ∀ playerId others flushed rest, event = .handle →
    s.inbound = (some second, .playerEnter playerId second others flushed) :: rest → first ≠ second →
    s.map.playerIndex playerId = some first → (s.map.entities first).isSome →
    s'.map.playerIndex playerId = some second ∧ s'.map.entities first = none ∧ (s'.map.channels first).closed = true
  /-- An intent of the first leaves the second's entity alone. -/
  intents : ∀ playerId intent rest, event = .handle → s.inbound = (some first, .clientIntent playerId intent) :: rest →
    s'.map.entities second = s.map.entities second
  /-- The first's phase ends when it finds its channel closed and empty. -/
  loop : ∀ turn, event = .iterate first turn → FindsClosed s first turn → ∃ c, s'.conns first = some c ∧ c.ended = true

def StepsInert (first second : EntityId) (s : InGameCore ρ) (event : InGameEvent ρ) : Prop :=
  ∀ s', inGameStep s event = some s' → Inert first second s event s'

def ToMap.isIntent : ToMap → Bool
  | .clientIntent _ => true
  | .capturePlayerSnapshot => false

def Turn.sendsIntent (turn : Turn) : Bool :=
  match turn.branch with
  | .packet _ sent _ => sent.any ToMap.isIntent
  | _ => false

def Branch.ends (c : InGameConn) : Branch → Bool
  | .serverDrain => true
  | .heartbeat now => c.session.onTick now = some .timedOut
  | .packet _ _ outcome => outcome ≠ .handled
  | .connectionClosed => true
  | .outbound => false

/-- The turn ends the phase, whatever its channel holds. -/
def Turn.ends (c : InGameConn) (turn : Turn) : Bool := turn.burstFails || turn.effectsFail || turn.branch.ends c

instance (s : InGameCore ρ) (conn : EntityId) (turn : Turn) : Decidable (FindsClosed s conn turn) :=
  inferInstanceAs (Decidable (_ ∧ _))

/-- The first connection sends no intent that finds the second's entity when its turn comes. -/
def SendsPast (first second : EntityId) (s : InGameCore ρ) : InGameEvent ρ → Prop
  | .iterate conn turn => conn = first → ∀ c ∈ s.conns first,
    turn.sendsIntent = true → s.settled.playerIndex c.playerId ≠ some second
  | _ => True

/-- An iteration of the first connection that finds its channel closed and empty ends the phase for another reason. -/
def EndsOtherwise (first : EntityId) (s : InGameCore ρ) : InGameEvent ρ → Prop
  | .iterate conn turn => conn = first → ∀ c ∈ s.conns first,
    c.ended = false → FindsClosed s first turn → turn.ends c = true
  | _ => True

instance (first second : EntityId) (s : InGameCore ρ) : ∀ event, Decidable (SendsPast first second s event)
  | .iterate _ _ => inferInstanceAs (Decidable (_ → ∀ c ∈ _, _))
  | .enter .. => .isTrue trivial
  | .enterFails .. => .isTrue trivial
  | .handle => .isTrue trivial
  | .simulate _ => .isTrue trivial
  | .shout _ => .isTrue trivial

instance (first : EntityId) (s : InGameCore ρ) : ∀ event, Decidable (EndsOtherwise first s event)
  | .iterate _ _ => inferInstanceAs (Decidable (_ → ∀ c ∈ _, _))
  | .enter .. => .isTrue trivial
  | .enterFails .. => .isTrue trivial
  | .handle => .isTrue trivial
  | .simulate _ => .isTrue trivial
  | .shout _ => .isTrue trivial

/-- No intent of the first connection that is under way will find the second's entity. -/
def MissesSecond (first second : EntityId) (s : InGameCore ρ) : Prop :=
  ∀ pre playerId intent post, s.inbound = pre ++ (some first, .clientIntent playerId intent) :: post →
    ((pre.map Prod.snd).foldl MapRuntime.handleInbound s.map).playerIndex playerId ≠ some second

/-! ## The queue -/

theorem iterate_sent {c c' : InGameConn} {channel channel' : EventChannel} {turn : Turn} {sent : List ToMap}
    (h : c.iterate channel turn = some (c', channel', sent)) :
    sent = [] ∨ ∃ now outcome, turn.branch = .packet now sent outcome := by
  unfold InGameConn.iterate at h
  dsimp only at h
  split at h
  · cases h
    exact .inl rfl
  · obtain ⟨⟨c₁, channel₁, sent₁⟩, hsel, heq⟩ := Option.map_eq_some_iff.1 h
    cases heq
    unfold InGameConn.select at hsel
    split at hsel
    · cases hsel
      exact .inl rfl
    · cases hsel
      exact .inl rfl
    · rename_i now sent' outcome hbranch
      cases hsel
      exact .inr ⟨now, outcome, hbranch⟩
    · cases hsel
      exact .inl rfl
    · split at hsel
      · cases hsel
        exact .inl rfl
      · split at hsel
        · cases hsel
          exact .inl rfl
        · cases hsel

/-- What comes in later waits behind what is there. -/
theorem MissesSecond.append {first second : EntityId} {s s' : InGameCore ρ}
    {extra : List (Option EntityId × InboundEvent ρ)} (h : MissesSecond first second s)
    (hmap : MapRuntime.SamePlayers s.map s'.map) (hinbound : s'.inbound = s.inbound ++ extra)
    (hextra : ∀ pre playerId intent post, extra = pre ++ (some first, .clientIntent playerId intent) :: post →
      ((pre.map Prod.snd).foldl MapRuntime.handleInbound s.settled).playerIndex playerId ≠ some second) :
    MissesSecond first second s' := by
  intro pre playerId intent post hsplit
  rw [← (hmap.foldl (pre.map Prod.snd)).index]
  rw [hinbound] at hsplit
  have hnew : ∀ pre', pre = s.inbound ++ pre' → extra = pre' ++ (some first, .clientIntent playerId intent) :: post →
      ((pre.map Prod.snd).foldl MapRuntime.handleInbound s.map).playerIndex playerId ≠ some second := by
    rintro pre' rfl hrest
    rw [List.map_append, List.foldl_append]
    exact hextra pre' playerId intent post hrest
  rcases List.append_eq_append_iff.1 hsplit with ⟨pre', hpre, hrest⟩ | ⟨mid, hold, hmid⟩
  · exact hnew pre' hpre hrest
  · cases mid with
    | nil => exact hnew [] (by simpa using hold.symm) (by simpa using hmid.symm)
    | cons m mid =>
      rw [List.cons_append, List.cons.injEq] at hmid
      obtain ⟨rfl, _⟩ := hmid
      exact h pre playerId intent mid hold

theorem channels_samePlayers (w : MapRuntime ρ) (channels : EntityId → EventChannel) :
    MapRuntime.SamePlayers w { w with channels } := ⟨rfl, fun _ => rfl⟩

/-- What a packet sends moves nobody on or off the map. -/
theorem sent_samePlayers (w : MapRuntime ρ) (playerId : PlayerId) (netId : EntityId) (sent : List ToMap) :
    MapRuntime.SamePlayers w ((sent.map (ToMap.inbound playerId netId)).foldl MapRuntime.handleInbound w) := by
  induction sent generalizing w with
  | nil => exact .refl w
  | cons m sent ih =>
    have hone : MapRuntime.SamePlayers w (w.handleInbound (m.inbound playerId netId)) := by
      cases m with
      | clientIntent intent => exact MapRuntime.handleClientIntent_samePlayers w playerId intent
      | capturePlayerSnapshot => exact .refl w
    exact hone.trans (ih _)

theorem leave_not_intent {c : InGameConn} {netId : EntityId} {handoff : Bool} {playerId : PlayerId}
    {intent : ClientIntent} :
    InboundEvent.clientIntent (ρ := ρ) playerId intent ∉ c.leave netId handoff := by
  unfold InGameConn.leave
  split
  · split <;> simp
  · simp

/-- An intent among what a turn of the first connection sends: it finds the players that are there once everything under
way has been handled. -/
theorem iterate_misses {first second : EntityId} {s : InGameCore ρ} {turn : Turn} {c c' : InGameConn}
    {channel : EventChannel} {sent : List ToMap} (hc : s.conns first = some c)
    (hiter : c.iterate (s.map.channels first) turn = some (c', channel, sent))
    (hpast : SendsPast first second s (.iterate first turn)) (tail : List (InboundEvent ρ))
    (htail : ∀ playerId intent, InboundEvent.clientIntent playerId intent ∉ tail) :
    ∀ pre playerId intent post, (sent.map (ToMap.inbound c.playerId first) ++ tail).map
      (fun event => (some first, event)) =
        pre ++ (some first, .clientIntent playerId intent) :: post →
      ((pre.map Prod.snd).foldl MapRuntime.handleInbound s.settled).playerIndex playerId ≠ some second := by
  intro pre playerId intent post hsplit
  have hevents : sent.map (ToMap.inbound c.playerId first) ++ tail =
      pre.map Prod.snd ++ InboundEvent.clientIntent playerId intent :: post.map Prod.snd := by
    have := congrArg (List.map Prod.snd) hsplit
    simpa [Function.comp_def] using this
  -- the intent is one of those that the packet sends, not part of the leave
  obtain ⟨done, m, rest, hsent, hdone, hm⟩ : ∃ done m rest, sent = done ++ m :: rest ∧
      pre.map Prod.snd = done.map (ToMap.inbound (ρ := ρ) c.playerId first) ∧
      ToMap.inbound (ρ := ρ) c.playerId first m = .clientIntent playerId intent := by
    rcases List.append_eq_append_iff.1 hevents with ⟨pre', _, hrest⟩ | ⟨mid, hold, hmid⟩
    · exact absurd (by rw [hrest]; simp) (htail playerId intent)
    · cases mid with
      | nil => exact absurd (by rw [← List.nil_append tail, ← hmid]; simp) (htail playerId intent)
      | cons m' mid =>
        rw [List.cons_append, List.cons.injEq] at hmid
        obtain ⟨rfl, _⟩ := hmid
        obtain ⟨done, tl, hsent, hdone, htl⟩ := List.map_eq_append_iff.1 hold
        obtain ⟨m, rest, hrest, hm, _⟩ := List.map_eq_cons_iff.1 htl
        exact ⟨done, m, rest, hsent.trans (congrArg _ hrest), hdone.symm, hm⟩
  cases m with
  | capturePlayerSnapshot => cases hm
  | clientIntent intent' =>
    cases hm
    have hsends : turn.sendsIntent = true := by
      rcases iterate_sent hiter with hnil | ⟨now, outcome, hbranch⟩
      · rw [hnil] at hsent
        simp at hsent
      · simp [Turn.sendsIntent, hbranch, hsent, ToMap.isIntent]
    rw [hdone, ← (sent_samePlayers s.settled c.playerId first done).index]
    exact hpast rfl c hc hsends

/-- An event that brings in no intent of the first connection. -/
theorem MissesSecond.append_others {first second : EntityId} {s s' : InGameCore ρ}
    {extra : List (Option EntityId × InboundEvent ρ)} (h : MissesSecond first second s)
    (hmap : MapRuntime.SamePlayers s.map s'.map) (hinbound : s'.inbound = s.inbound ++ extra)
    (hextra : ∀ playerId intent, (some first, .clientIntent playerId intent) ∉ extra) :
    MissesSecond first second s' := by
  refine h.append hmap hinbound ?_
  intro pre playerId intent post hsplit
  exact absurd (by rw [hsplit]; simp) (hextra playerId intent)

/-! ## Runs -/

theorem MissesSecond.step {first second : EntityId} {s s' : InGameCore ρ} {event : InGameEvent ρ}
    (h : MissesSecond first second s) (hpast : SendsPast first second s event) (hstep : inGameStep s event = some s') :
    MissesSecond first second s' := by
  cases event with
  | enter netId playerId session others flushed =>
    simp only [inGameStep] at hstep
    split at hstep
    · cases hstep
    · cases hstep
      exact h.append_others (channels_samePlayers s.map _) rfl (by simp)
  | enterFails netId playerId session =>
    simp only [inGameStep] at hstep
    split at hstep
    · cases hstep
    · cases hstep
      exact h.append_others (channels_samePlayers s.map _) (List.append_nil _).symm (by simp)
  | iterate conn turn =>
    simp only [inGameStep] at hstep
    split at hstep
    · rename_i c hc
      split at hstep
      · cases hstep
      · obtain ⟨⟨c', channel, sent⟩, hiter, rfl⟩ := Option.map_eq_some_iff.1 hstep
        by_cases hconn : conn = first
        · subst hconn
          refine h.append (channels_samePlayers s.map _) rfl ?_
          apply iterate_misses hc hiter hpast
          intro playerId intent
          split
          · exact leave_not_intent
          · simp
        · -- another connection sends in its own name
          refine h.append_others (channels_samePlayers s.map _) rfl ?_
          intro playerId intent hmem
          obtain ⟨_, _, heq⟩ := List.mem_map.1 hmem
          cases heq
          exact hconn rfl
    · cases hstep
  | handle =>
    simp only [inGameStep] at hstep
    split at hstep
    · rename_i sender event rest hin
      cases hstep
      intro pre playerId intent post hsplit
      exact h ((sender, event) :: pre) playerId intent post (by rw [hin]; exact congrArg _ hsplit)
    · cases hstep
  | simulate f =>
    cases hstep
    exact h.append_others (MapRuntime.simulate_samePlayers s.map f) (List.append_nil _).symm (by simp)
  | shout push =>
    cases hstep
    exact h.append_others (.refl s.map) rfl (by simp)

/-- A branch that finds the channel closed and empty ends the phase exactly when it ends for another reason. -/
theorem select_ended {c c' : InGameConn} {channel channel' : EventChannel} {turn : Turn} {sent : List ToMap}
    (hempty : channel.queue = []) (hopen : c.ended = false) (h : c.select channel turn = some (c', channel', sent)) :
    c'.ended = turn.branch.ends c := by
  unfold InGameConn.select at h
  cases hb : turn.branch with
  | serverDrain =>
    rw [hb] at h
    cases h
    rfl
  | heartbeat now =>
    rw [hb] at h
    cases h
    rfl
  | packet now sent' outcome =>
    rw [hb] at h
    cases h
    rfl
  | connectionClosed =>
    rw [hb] at h
    cases h
    rfl
  | outbound =>
    rw [hb, hempty] at h
    dsimp only at h
    split at h
    · cases h
      exact hopen
    · cases h

theorem iterate_ended {c c' : InGameConn} {channel channel' : EventChannel} {turn : Turn} {sent : List ToMap}
    (hempty : drainOutboundBurst turn.relocated mapEventBurstLimit channel.queue = ([], false))
    (hopen : c.ended = false) (h : c.iterate channel turn = some (c', channel', sent)) : c'.ended = turn.ends c := by
  unfold InGameConn.iterate at h
  rw [hempty] at h
  unfold Turn.ends
  cases hburst : turn.burstFails with
  | true =>
    simp only [hburst, Bool.or_true, if_true] at h
    cases h
    simp
  | false =>
    simp only [hburst, Bool.or_false, Bool.false_eq_true, if_false] at h
    obtain ⟨⟨c₁, channel₁, sent₁⟩, hsel, heq⟩ := Option.map_eq_some_iff.1 h
    cases heq
    dsimp only
    rw [select_ended rfl hopen hsel, Bool.false_or, Bool.or_comm]

/-- A closed channel is always ready. -/
theorem iterate_of_closed (c : InGameConn) {channel : EventChannel} (turn : Turn) (hclosed : channel.closed = true) :
    ∃ r, c.iterate channel turn = some r := by
  unfold InGameConn.iterate
  dsimp only
  split
  · exact ⟨_, rfl⟩
  · obtain ⟨r, hr⟩ : ∃ r, c.select { channel with queue := (drainOutboundBurst turn.relocated mapEventBurstLimit
        channel.queue).1 } turn = some r := by
      unfold InGameConn.select
      split
      · exact ⟨_, rfl⟩
      · exact ⟨_, rfl⟩
      · exact ⟨_, rfl⟩
      · exact ⟨_, rfl⟩
      · split
        · exact ⟨_, rfl⟩
        · exact ⟨_, if_pos hclosed⟩
    exact ⟨_, congrArg (Option.map _) hr⟩

theorem inGameStep_iterate {s : InGameCore ρ} {conn : EntityId} {turn : Turn} {c : InGameConn}
    {r : InGameConn × EventChannel × List ToMap} (hc : s.conns conn = some c) (hopen : c.ended = false)
    (hiter : c.iterate (s.map.channels conn) turn = some r) :
    ∃ s', inGameStep s (.iterate conn turn) = some s' ∧ s'.conns conn = some r.1 := by
  simp only [inGameStep, hc, hopen, hiter, Bool.false_eq_true, if_false, Option.map_some, Option.some.injEq]
  exact ⟨_, rfl, Function.update_self ..⟩

/-- Where no intent of the first that is under way will find the second, a step has the property exactly if an iteration
that finds the channel closed and empty ends for another reason. -/
theorem stepsInert_iff_endsOtherwise {first second : EntityId} {s : InGameCore ρ} {event : InGameEvent ρ}
    (hmiss : MissesSecond first second s) : StepsInert first second s event ↔ EndsOtherwise first s event := by
  constructor
  · intro hinert
    cases event with
    | iterate conn turn =>
      rintro rfl c hc hopen hfinds
      obtain ⟨⟨c', channel, sent⟩, hiter⟩ := iterate_of_closed c turn hfinds.1
      obtain ⟨s', hs', hconn⟩ := inGameStep_iterate hc hopen hiter
      obtain ⟨c₁, hc₁, hended⟩ := (hinert s' hs').loop turn rfl hfinds
      have hsame : c' = c₁ := Option.some.inj (hconn.symm.trans hc₁)
      rw [← iterate_ended hfinds.2 hopen hiter, hsame, hended]
    | enter _ _ _ _ _ => trivial
    | enterFails _ _ _ => trivial
    | handle => trivial
    | simulate _ => trivial
    | shout _ => trivial
  · intro hends s' hstep
    refine ⟨?_, ?_, ?_⟩
    · rintro playerId others flushed rest rfl hin hne hfirst hthere
      simp only [inGameStep, hin] at hstep
      cases hstep
      exact MapRuntime.handlePlayerEnter_displaces others flushed hfirst hthere hne
    · rintro playerId intent rest rfl hin
      simp only [inGameStep, hin] at hstep
      cases hstep
      have hnot : s.map.playerIndex playerId ≠ some second := hmiss [] playerId intent rest hin
      show (s.map.handleClientIntent playerId intent).entities second = s.map.entities second
      unfold MapRuntime.handleClientIntent
      cases hindex : s.map.playerIndex playerId with
      | none => rfl
      | some entity =>
        have hne : second ≠ entity := by
          rintro rfl
          exact hnot hindex
        simp [hne]
    · rintro turn rfl hfinds
      simp only [inGameStep] at hstep
      split at hstep
      · rename_i c hc
        split at hstep
        · cases hstep
        · rename_i hopen
          obtain ⟨⟨c', channel, sent⟩, hiter, rfl⟩ := Option.map_eq_some_iff.1 hstep
          have hopen : c.ended = false := by simpa using hopen
          refine ⟨c', by simp, ?_⟩
          rw [iterate_ended hfinds.2 hopen hiter]
          exact hends rfl c hc hopen hfinds
      · cases hstep

/-- For every interleaving of connections, their turns and the map in which the first connection sends no intent that
finds the second's entity in the player's place: the second's entry displaces the first, no intent of the first changes
the second's entity and the first's loop ends at each iteration that finds its channel closed and empty, exactly if each
of these iterations ends the phase for another reason. -/
theorem displaced_connection_inert (first second : EntityId) {events : List (InGameEvent ρ)}
    (hpast : Meets inGameStep (SendsPast first second) (InGameCore.start (ρ := ρ)) events) :
    Meets inGameStep (StepsInert first second) (InGameCore.start (ρ := ρ)) events ↔
      Meets inGameStep (EndsOtherwise first) (InGameCore.start (ρ := ρ)) events := by
  have hstart : MissesSecond first second (InGameCore.start (ρ := ρ)) := by
    intro pre playerId intent post hsplit
    simp [InGameCore.start] at hsplit
  constructor
  · intro hinert
    exact (hpast.and hinert).of_inv (I := MissesSecond first second) (fun _ _ _ hmiss h hstep => hmiss.step h.1 hstep)
      (fun _ _ hmiss h => (stepsInert_iff_endsOtherwise hmiss).1 h.2) hstart
  · intro hends
    exact (hpast.and hends).of_inv (I := MissesSecond first second) (fun _ _ _ hmiss h hstep => hmiss.step h.1 hstep)
      (fun _ _ hmiss h => (stepsInert_iff_endsOtherwise hmiss).2 h.2) hstart

/-! ## A takeover on one map -/

def heroId : PlayerId := ⟨7⟩

def enterAs (netId : EntityId) : InGameEvent Unit :=
  .enter netId heroId (.new 0 10000000000) () [.entitySpawn ⟨netId, 0, ⟨0, 0⟩⟩]

def stepNorth : ClientIntent := .move .move 0 0 ⟨0, 0x3f800000⟩ 1000

/-- A client that walks. -/
def walkTurn : Turn := { branch := .packet 1000000000 [.clientIntent stepNorth] .handled }

/-- The player enters, walks and enters again through a second connection. -/
def reenterEvents : List (InGameEvent Unit) :=
  [enterAs ⟨1⟩, .handle, .iterate ⟨1⟩ walkTurn, .handle, .simulate ⟨id, fun _ => []⟩, enterAs ⟨2⟩, .handle]

/-- The client of the first connection is gone: its turn ends the phase, and its leave does not touch the second
entity. -/
theorem displaced_connection_inert_closed :
    ∃ s c, run inGameStep InGameCore.start
      (reenterEvents ++ [.iterate ⟨1⟩ { branch := .connectionClosed }, .handle]) = some s ∧
      s.conns ⟨1⟩ = some c ∧ c.ended = true ∧ s.map.playerIndex heroId = some ⟨2⟩ ∧
      Meets inGameStep (StepsInert ⟨1⟩ ⟨2⟩) (InGameCore.start (ρ := Unit))
        (reenterEvents ++ [.iterate ⟨1⟩ { branch := .connectionClosed }, .handle]) :=
  ⟨_, _, rfl, rfl, rfl, rfl, (displaced_connection_inert ⟨1⟩ ⟨2⟩ (by decide)).2 (by decide)⟩

/-- The client of the first connection walks on: the second entity takes the step, and the turn that finds the channel
closed and empty leaves the loop running. -/
theorem displaced_connection_acts :
    ∃ s s₁ s₂ s₃ c, run inGameStep InGameCore.start reenterEvents = some s ∧ s.map.playerIndex heroId = some ⟨2⟩ ∧
      s.map.entities ⟨1⟩ = none ∧ (s.map.channels ⟨1⟩).closed = true ∧
      inGameStep s (.iterate ⟨1⟩ walkTurn) = some s₁ ∧ inGameStep s₁ .handle = some s₂ ∧
      (s.map.entities ⟨2⟩).map PlayerEntity.commands = some [] ∧
      (s₂.map.entities ⟨2⟩).map PlayerEntity.commands = some [.move .move 0 0 ⟨0, 0x3f800000⟩ 1000] ∧
      FindsClosed s₂ ⟨1⟩ { branch := .outbound } ∧ inGameStep s₂ (.iterate ⟨1⟩ { branch := .outbound }) = some s₃ ∧
      s₃.conns ⟨1⟩ = some c ∧ c.ended = false :=
  ⟨_, _, _, _, _, rfl, rfl, rfl, rfl, rfl, rfl, rfl, rfl, ⟨rfl, rfl⟩, rfl, rfl, rfl⟩

end Zohar.Game
