/-
One player on its map, as far as its stamina and its gait go: the commands it sends, the phases of its life, the tickers
of its statistics, and the timer of its client. From zohar-sim/src/runtime: player/stat_tickers.rs, player/actions.rs,
player/restart.rs, player/lifecycle.rs, life.rs and projection.rs. The turns come in any order; those of the tickers and
of the projection come together, for nothing that concerns the player runs between the two.
-/
import Zohar.Replication.Movement
import Zohar.Sim.Life
import Zohar.Sim.Ticker
import Zohar.Stats.Stamina

namespace Zohar.Sim

open Zohar.Lib Zohar.Stats
open Zohar.Replication (MovementAnimation Mover PlayerCommand Surroundings)

/-! ## Components -/

structure PlayerActivityComp where
  lastMovementStartAt : Option Nat
  lastAttackAt : Option Nat
  lastWalkStartedAt : Option Nat
  preferredMovementAnimation : MovementAnimation
  deriving DecidableEq, Repr

/-- The default value; `Run` is that of the animation. -/
def PlayerActivityComp.default : PlayerActivityComp := ⟨none, none, none, .run⟩

structure PlayerTicker (T : Type) where
  clock : SimTickerClock
  state : T
  deriving DecidableEq, Repr

namespace PlayerTicker

variable {T : Type}

def initial (playerId : PlayerId) (now cadence : Nat) (state : T) : Option (PlayerTicker T) :=
  (SimTickerClock.phased playerId.raw now cadence).map fun clock => ⟨clock, state⟩

def reset (t : PlayerTicker T) (now cadence : Nat) (state : T) : PlayerTicker T :=
  ⟨t.clock.retryAfter now cadence, state⟩

/-- What the `tick_` functions share: nothing before the ticker is due. The loop of its clock gets more passes than it
has instants to go past. -/
def advance {α : Type} (t : PlayerTicker T) (now : Nat) (tick : T → Duration → α × T) :
    Option (Option α × PlayerTicker T) :=
  (t.clock.advanceDue (now + 2) now).map fun (elapsed, clock) =>
    match elapsed with
    | none => (none, { t with clock })
    | some elapsed =>
      let (a, state) := tick t.state (.fromMillis elapsed)
      (some a, ⟨clock, state⟩)

end PlayerTicker

structure PlayerStatTickerComp where
  passiveHp : PlayerTicker PlayerPassiveHpRecoveryState
  passiveSp : PlayerTicker PlayerPassiveSpRecoveryState
  stamina : PlayerTicker PlayerStaminaState
  deriving DecidableEq, Repr

namespace PlayerStatTickerComp

def passiveHpCadence : Nat := 250
def passiveSpCadence : Nat := 250
def legacyStaminaCadence : Nat := 250

def initial (playerId : PlayerId) (now : Nat) : Option PlayerStatTickerComp := do
  let passiveHp ← PlayerTicker.initial playerId now passiveHpCadence ⟨.default⟩
  let passiveSp ← PlayerTicker.initial playerId now passiveSpCadence ⟨.default⟩
  let stamina ← PlayerTicker.initial playerId now legacyStaminaCadence ⟨.default, false⟩
  return ⟨passiveHp, passiveSp, stamina⟩

def resetAfterRegenerationPause (t : PlayerStatTickerComp) (now : Nat) : PlayerStatTickerComp where
  passiveHp := t.passiveHp.reset now passiveHpCadence ⟨.default⟩
  passiveSp := t.passiveSp.reset now passiveSpCadence ⟨.default⟩
  stamina := t.stamina.reset now legacyStaminaCadence ⟨.default, false⟩

def resetAfterRestart (t : PlayerStatTickerComp) (now : Nat) : PlayerStatTickerComp := t.resetAfterRegenerationPause now

end PlayerStatTickerComp

structure PlayerStaminaTimerChanged where
  command : PlayerStaminaTimerCommand
  currentStamina : Int
  deriving DecidableEq, Repr

/-- The text of the chat command, with the zero that ends it. -/
def staminaTimerCommand (fact : PlayerStaminaTimerChanged) : List Char :=
  match fact.command with
  | .start consumePerSec =>
    "StartStaminaConsume ".toList ++ (toString consumePerSec).toList ++ ' ' :: (toString fact.currentStamina).toList ++
      ['\x00']
  | .stop => "StopStaminaConsume ".toList ++ (toString fact.currentStamina).toList ++ ['\x00']

/-- The life, the statistics and the class are those of the actor; the position, the motion and the animation are those
of the mover. `facts` are the frame facts about the stamina timer, `sent` the chat commands that the client has got of
them. `exhausted` is history: it holds from the tick that spends the last of the stamina until the stamina is restored,
and no function of the source reads it. -/
structure MapPlayer where
  simNow : Nat
  actor : Actor
  mover : Mover
  activity : PlayerActivityComp
  tickers : PlayerStatTickerComp
  facts : List PlayerStaminaTimerChanged
  sent : List (List Char)
  exhausted : Bool

namespace MapPlayer

/-- `handle_player_enter`. -/
def enter (now : Nat) (msg : LifeWorld.EnterMsg) (hydrated : HydratedPlayerStats) (initialPos : LocalPos) :
    Option MapPlayer :=
  (PlayerStatTickerComp.initial msg.playerId now).map fun tickers =>
    { simNow := now
      actor := LifeWorld.enteringActor msg hydrated
      mover := ⟨msg.playerId, msg.playerNetId, initialPos, 0, ⟨initialPos, initialPos, 0, 0, 0⟩, .run⟩
      activity := .default
      tickers
      facts := []
      sent := []
      exhausted := false }

def stats (p : MapPlayer) : ActorStatsRuntime := p.actor.stats

def consuming (p : MapPlayer) : Bool := p.tickers.stamina.state.consuming

/-! ## Commands -/

def setPlayerMovementAnimation (p : MapPlayer) (animation : MovementAnimation) : MapPlayer :=
  { p with
    mover := { p.mover with animation }
    activity :=
      { p.activity with
        preferredMovementAnimation := animation
        lastWalkStartedAt := if animation = .walk then some p.simNow else p.activity.lastWalkStartedAt } }

/-- One command of a player that can act. -/
def applyCommand (around : Surroundings) (p : MapPlayer) (command : PlayerCommand) : MapPlayer :=
  let mover := (p.mover.applyCommand around command).1
  match command with
  | .move .. => { p with mover, activity := { p.activity with lastMovementStartAt := some p.simNow } }
  | .setMovementAnimation animation => p.setPlayerMovementAnimation animation
  | .selectTarget _ => p
  | .attack target =>
    if around.validatePlayerAttack p.mover.pos target then
      { p with mover, activity := { p.activity with lastAttackAt := some p.simNow } }
    else p

/-- `process_player_actions`: a player that cannot act drops its commands. -/
def processPlayerAction (around : Surroundings) (p : MapPlayer) (command : PlayerCommand) : MapPlayer :=
  if p.actor.life.isAlive then p.applyCommand around command else p

/-! ## Life -/

def withLife (p : MapPlayer) (life : ActorLifePhase) : MapPlayer := { p with actor := { p.actor with life } }

def beginActorDying (p : MapPlayer) : MapPlayer := ((p.actor.life.beginDying p.simNow).map p.withLife).getD p

def finalizeDyingActorDeath (p : MapPlayer) : MapPlayer :=
  if p.actor.life.isDying then p.withLife (deathPhase p.simNow p.actor) else p

/-- `process_actor_lifecycle`. -/
def age (p : MapPlayer) : MapPlayer :=
  match p.actor.life with
  | .dying _ deadAt => if p.simNow ≥ deadAt then p.withLife (deathPhase p.simNow p.actor) else p
  | _ => p

/-- `to_client_timestamp` of the server's clock. -/
def packetNow (p : MapPlayer) : Nat := min p.simNow 4294967295

/-- `apply_restart_state`; the position is the same, whatever the placement. -/
def applyRestartState (p : MapPlayer) (hp : LifeWorld.RestartHp) : Option MapPlayer :=
  ((withApi (GameStatsApi.setResource .hp (hp.value p.stats))).exec p.stats).map fun stats =>
    { p with
      actor := { p.actor with life := p.actor.life.restart, stats }
      mover :=
        { p.mover with
          motion := ⟨p.mover.pos, p.mover.pos, p.packetNow, p.packetNow, p.packetNow⟩
          animation := .run }
      activity := .default
      tickers := p.tickers.resetAfterRestart p.simNow }

/-- Whether a requested restart goes through. -/
def restarts (p : MapPlayer) (intent : PlayerRestartIntent) : Bool :=
  p.actor.life.isDead && p.actor.life.restartReadinessFor intent p.simNow == some .ready

def processRequestedRestart (p : MapPlayer) (intent : PlayerRestartIntent) : Option MapPlayer :=
  if p.restarts intent then p.applyRestartState (.fixed LifeWorld.manualRestartHp) else some p

/-- `forced_respawn_players`, and the restart in town. -/
def forceRespawn (p : MapPlayer) : Option MapPlayer :=
  if p.actor.life.forcedRespawnDue p.simNow then p.applyRestartState .halfMax else some p

/-! ## Tickers -/

def elapsedSince (now : Nat) (event : Option Nat) : Option Duration :=
  event.bind fun at' => if now < at' then none else some (.fromMillis (now - at'))

def playerMovementEndAt (p : MapPlayer) : Option Nat :=
  p.activity.lastMovementStartAt.map fun startedAt =>
    satAdd startedAt (p.mover.motion.segmentEndTs - p.mover.motion.segmentStartTs)

def playerStatActivity (p : MapPlayer) : PlayerStatActivity where
  movement :=
    match p.playerMovementEndAt with
    | some endAt => if endAt > p.simNow then .moving else .stopped (.fromMillis (p.simNow - endAt))
    | none => .idle
  sinceWalkStarted := elapsedSince p.simNow p.activity.lastWalkStartedAt
  sinceAttack := elapsedSince p.simNow p.activity.lastAttackAt

/-- The resource after an application, with the player; an error is only logged. -/
def applyPlayerResourceApplication (p : MapPlayer) (application : Option ResourceApplication) :
    Option (Option Int × MapPlayer) :=
  match application with
  | none => some (none, p)
  | some application =>
    ((withApi (GameStatsApi.applyResource application)).run p.stats).map fun (result, stats) =>
      (match result with
        | .ok result => some result.current
        | .error _ => none,
        { p with actor := { p.actor with stats } })

def tickPassiveHp (p : MapPlayer) (activity : PlayerStatActivity) : Option MapPlayer := do
  let maxHp ← readLimitedOf p.stats .maxHp
  let (application, passiveHp) ← p.tickers.passiveHp.advance p.simNow fun state elapsed =>
    tickPlayerPassiveHpRecovery state (p.stats.readPacket .hp) maxHp activity elapsed
  let (_, p) ← { p with tickers := { p.tickers with passiveHp } }.applyPlayerResourceApplication application.join
  return p

def spRecoveryProfile : PlayerClass → PlayerSpRecoveryProfile
  | .warrior | .ninja | .sura => .standard
  | .shaman => .caster

def tickPassiveSp (p : MapPlayer) (activity : PlayerStatActivity) : Option MapPlayer :=
  match p.actor.role with
  | .mob _ => some p
  | .player comps => do
    let maxHp ← readLimitedOf p.stats .maxHp
    let maxSp ← readLimitedOf p.stats .maxSp
    let (application, passiveSp) ← p.tickers.passiveSp.advance p.simNow fun state elapsed =>
      tickPlayerPassiveSpRecovery state (p.stats.readPacket .hp) maxHp (p.stats.readPacket .sp) maxSp activity
        (spRecoveryProfile comps.progression.playerClass) elapsed
    let (_, p) ← { p with tickers := { p.tickers with passiveSp } }.applyPlayerResourceApplication application.join
    return p

def pushStaminaTimer (p : MapPlayer) (timer : Option PlayerStaminaTimerCommand) (currentStamina : Int) : MapPlayer :=
  { p with facts := p.facts ++ timer.toList.map fun command => ⟨command, currentStamina⟩ }

/-- `ascertain_movement_animation_change`. -/
def overrideMovement (p : MapPlayer) : Option PlayerStaminaMovementOverride → MapPlayer
  | none => p
  | some .forceWalk =>
    { p with
      mover := { p.mover with animation := .walk }
      activity := { p.activity with lastWalkStartedAt := some p.simNow } }
  | some .revertToPreferred => { p with mover := { p.mover with animation := p.activity.preferredMovementAnimation } }

/-- What the history notes of a tick that found `stamina` and made the application. -/
def noteTick (p : MapPlayer) (stamina maxStamina : Int) (application : Option ResourceApplication) : MapPlayer :=
  { p with
    exhausted :=
      if 0 < stamina ∧ application = some (.spend .stamina stamina) then true
      else if application = some (.restore .stamina maxStamina) then false
      else p.exhausted }

def applyStaminaEffect (p : MapPlayer) (stamina maxStamina : Int) (effect : PlayerStaminaEffect) :
    Option MapPlayer := do
  let (current, p) ← p.applyPlayerResourceApplication effect.application
  let p := p.pushStaminaTimer effect.timer (current.getD (p.stats.readPacket .stamina))
  return (p.overrideMovement effect.movementOverride).noteTick stamina maxStamina effect.application

def tickStamina (p : MapPlayer) (activity : PlayerStatActivity) : Option MapPlayer := do
  let maxStamina ← readLimitedOf p.stats .maxStamina
  let stamina := p.stats.readPacket .stamina
  let (effect, ticker) ← p.tickers.stamina.advance p.simNow fun state elapsed =>
    tickPlayerStamina state stamina maxStamina activity p.mover.animation elapsed
  let p := { p with tickers := { p.tickers with stamina := ticker } }
  match effect with
  | none => some p
  | some effect => p.applyStaminaEffect stamina maxStamina effect

def pausePlayerStatTickers (p : MapPlayer) : MapPlayer :=
  { p with tickers := p.tickers.resetAfterRegenerationPause p.simNow }

def processPlayerStatTickers (p : MapPlayer) : Option MapPlayer :=
  if p.actor.life.isAlive then do
    let activity := p.playerStatActivity
    let p ← p.tickPassiveHp activity
    let p ← p.tickPassiveSp activity
    p.tickStamina activity
  else some p.pausePlayerStatTickers

/-- The stamina timers of `project_frame_facts`, and the reset of the facts. -/
def projectFrameFacts (p : MapPlayer) : MapPlayer :=
  { p with sent := p.sent ++ p.facts.map staminaTimerCommand, facts := [] }

/-! ## What a tick can do -/

/-- What the tickers of life and spirit leave as it is. -/
structure SameGait (p t : MapPlayer) : Prop where
  mover : t.mover = p.mover
  stamina : t.tickers.stamina = p.tickers.stamina
  facts : t.facts = p.facts
  sent : t.sent = p.sent
  exhausted : t.exhausted = p.exhausted

theorem SameGait.trans {p t u : MapPlayer} (h : SameGait p t) (h' : SameGait t u) : SameGait p u where
  mover := h'.mover.trans h.mover
  stamina := h'.stamina.trans h.stamina
  facts := h'.facts.trans h.facts
  sent := h'.sent.trans h.sent
  exhausted := h'.exhausted.trans h.exhausted

theorem applyPlayerResourceApplication_eq_some {p t : MapPlayer} {application : Option ResourceApplication}
    {current : Option Int} (h : p.applyPlayerResourceApplication application = some (current, t)) :
    ∃ stats, t = { p with actor := { p.actor with stats } } := by
  cases application with
  | none => cases h; exact ⟨p.actor.stats, rfl⟩
  | some application =>
    obtain ⟨r, -, hr⟩ := Option.map_eq_some_iff.1 h
    cases hr
    exact ⟨r.2, rfl⟩

theorem tickPassiveHp_sameGait {p t : MapPlayer} {activity : PlayerStatActivity}
    (h : p.tickPassiveHp activity = some t) :
    SameGait p t := by
  unfold tickPassiveHp at h
  obtain ⟨maxHp, -, h⟩ := Option.bind_eq_some_iff.1 h
  obtain ⟨⟨application, ticker⟩, -, h⟩ := Option.bind_eq_some_iff.1 h
  obtain ⟨⟨current, u⟩, hu, h⟩ := Option.bind_eq_some_iff.1 h
  obtain ⟨stats, rfl⟩ := applyPlayerResourceApplication_eq_some hu
  cases h
  exact ⟨rfl, rfl, rfl, rfl, rfl⟩

theorem tickPassiveSp_sameGait {p t : MapPlayer} {activity : PlayerStatActivity}
    (h : p.tickPassiveSp activity = some t) :
    SameGait p t := by
  unfold tickPassiveSp at h
  split at h
  · cases h
    exact ⟨rfl, rfl, rfl, rfl, rfl⟩
  · obtain ⟨maxHp, -, h⟩ := Option.bind_eq_some_iff.1 h
    obtain ⟨maxSp, -, h⟩ := Option.bind_eq_some_iff.1 h
    obtain ⟨⟨application, ticker⟩, -, h⟩ := Option.bind_eq_some_iff.1 h
    obtain ⟨⟨current, u⟩, hu, h⟩ := Option.bind_eq_some_iff.1 h
    obtain ⟨stats, rfl⟩ := applyPlayerResourceApplication_eq_some hu
    cases h
    exact ⟨rfl, rfl, rfl, rfl, rfl⟩

/-- What the stamina ticker does to a player: nothing to its gait before it is due, else what `tick_player_stamina`
says. -/
inductive StaminaTurn (p t : MapPlayer) : Prop where
  | notDue (hmover : t.mover = p.mover) (hstate : t.tickers.stamina.state = p.tickers.stamina.state)
    (hfacts : t.facts = p.facts) (hsent : t.sent = p.sent) (hexhausted : t.exhausted = p.exhausted)
  | due (stamina maxStamina current : Int) (activity : PlayerStatActivity) (elapsed : Duration)
    (effect : PlayerStaminaEffect)
    (heffect : tickPlayerStamina p.tickers.stamina.state stamina maxStamina activity p.mover.animation elapsed =
      (effect, t.tickers.stamina.state))
    (hmover : t.mover = (p.overrideMovement effect.movementOverride).mover)
    (hfacts : t.facts = (p.pushStaminaTimer effect.timer current).facts) (hsent : t.sent = p.sent)
    (hexhausted : t.exhausted = (p.noteTick stamina maxStamina effect.application).exhausted)

theorem PlayerTicker.advance_eq_some {T α : Type} {t t' : PlayerTicker T} {now : Nat} {tick : T → Duration → α × T}
    {r : Option α} (h : t.advance now tick = some (r, t')) :
    (r = none ∧ t'.state = t.state) ∨ ∃ elapsed a, r = some a ∧ tick t.state elapsed = (a, t'.state) := by
  obtain ⟨⟨elapsed, clock⟩, -, hr⟩ := Option.map_eq_some_iff.1 h
  cases elapsed with
  | none => cases hr; exact .inl ⟨rfl, rfl⟩
  | some elapsed => cases hr; exact .inr ⟨_, _, rfl, rfl⟩

theorem tickStamina_turn {p t : MapPlayer} {activity : PlayerStatActivity} (h : p.tickStamina activity = some t) :
    StaminaTurn p t := by
  unfold tickStamina at h
  obtain ⟨maxStamina, -, h⟩ := Option.bind_eq_some_iff.1 h
  obtain ⟨⟨effect, ticker⟩, hadvance, h⟩ := Option.bind_eq_some_iff.1 h
  rcases PlayerTicker.advance_eq_some hadvance with ⟨rfl, hstate⟩ | ⟨elapsed, effect, rfl, heffect⟩
  · cases h
    exact .notDue rfl hstate rfl rfl rfl
  · obtain ⟨⟨current, u⟩, hu, h⟩ := Option.bind_eq_some_iff.1 h
    obtain ⟨stats, rfl⟩ := applyPlayerResourceApplication_eq_some hu
    obtain rfl := Option.some.inj h
    obtain ⟨application, timer, movementOverride⟩ := effect
    cases movementOverride with
    | none => exact .due _ maxStamina _ activity elapsed _ heffect rfl rfl rfl rfl
    | some override =>
      cases override with
      | forceWalk => exact .due _ maxStamina _ activity elapsed _ heffect rfl rfl rfl rfl
      | revertToPreferred => exact .due _ maxStamina _ activity elapsed _ heffect rfl rfl rfl rfl

/-- A turn of the tickers pauses them, or runs that of the stamina on a player of the same gait. -/
theorem processPlayerStatTickers_cases {p t : MapPlayer} (h : p.processPlayerStatTickers = some t) :
    (p.actor.life.isAlive = false ∧ t = p.pausePlayerStatTickers) ∨
      (p.actor.life.isAlive = true ∧ ∃ u, SameGait p u ∧ StaminaTurn u t) := by
  unfold processPlayerStatTickers at h
  split at h
  · rename_i halive
    obtain ⟨u, hu, h⟩ := Option.bind_eq_some_iff.1 h
    obtain ⟨v, hv, h⟩ := Option.bind_eq_some_iff.1 h
    exact .inr ⟨halive, v, (tickPassiveHp_sameGait hu).trans (tickPassiveSp_sameGait hv), tickStamina_turn h⟩
  · rename_i hdown
    cases h
    exact .inl ⟨by simpa using hdown, rfl⟩

/-! ## Turns -/

/-- What other code leaves in the statistics: progression, rewards, damage, normalization. -/
def replaceStats (p : MapPlayer) (stats : ActorStatsRuntime) : MapPlayer :=
  { p with actor := { p.actor with stats }, exhausted := p.exhausted && decide (stats.readPacket .stamina ≤ 0) }

end MapPlayer

inductive PlayerTurn where
  | advance (now : Nat)
  | command (around : Surroundings) (command : PlayerCommand)
  | stats (stats : ActorStatsRuntime)
  | hpDepleted
  | hitWhileDying
  | age
  | restart (intent : PlayerRestartIntent)
  | forceRespawn
  | tick

def MapPlayer.step (p : MapPlayer) : PlayerTurn → Option MapPlayer
  | .advance now => if p.simNow ≤ now then some { p with simNow := now } else none
  | .command around command => some (p.processPlayerAction around command)
  | .stats stats => some (p.replaceStats stats)
  | .hpDepleted => some p.beginActorDying
  | .hitWhileDying => some p.finalizeDyingActorDeath
  | .age => some p.age
  | .restart intent => p.processRequestedRestart intent
  | .forceRespawn => p.forceRespawn
  | .tick => p.processPlayerStatTickers.map (·.projectFrameFacts)

namespace MapPlayer

/-- The turns in which the player restarts. -/
def restartsOn (p : MapPlayer) : PlayerTurn → Bool
  | .restart intent => p.restarts intent
  | .forceRespawn => p.actor.life.forcedRespawnDue p.simNow
  | _ => false

/-- What a turn can do: run the tickers and the projection, restart the player, set its animation, or leave its tickers,
its timer and its animation alone. -/
inductive TurnEffect (p t : MapPlayer) : PlayerTurn → Prop where
  | tick (u : MapPlayer) (hu : p.processPlayerStatTickers = some u) (ht : t = u.projectFrameFacts) :
    TurnEffect p t .tick
  | restarted {e : PlayerTurn} (hrestart : p.restartsOn e = true) (hanimation : t.mover.animation = .run)
    (htickers : t.tickers = p.tickers.resetAfterRestart p.simNow) (hfacts : t.facts = p.facts) (hsent : t.sent = p.sent)
    (hexhausted : t.exhausted = p.exhausted) : TurnEffect p t e
  | animated (around : Surroundings) (animation : MovementAnimation) (halive : p.actor.life.isAlive = true)
    (ht : t = p.setPlayerMovementAnimation animation) :
    TurnEffect p t (.command around (.setMovementAnimation animation))
  | kept {e : PlayerTurn} (htick : e ≠ .tick) (hrestart : p.restartsOn e = false)
    (hcommand : ∀ around animation, e = .command around (.setMovementAnimation animation) →
      p.actor.life.isAlive = false)
    (hanimation : t.mover.animation = p.mover.animation) (htickers : t.tickers = p.tickers) (hfacts : t.facts = p.facts)
    (hsent : t.sent = p.sent) (hexhausted : t.exhausted = true → p.exhausted = true) : TurnEffect p t e

theorem turnEffect_restart {p t : MapPlayer} {e : PlayerTurn} {hp : LifeWorld.RestartHp}
    (hrestart : p.restartsOn e = true) (h : p.applyRestartState hp = some t) : TurnEffect p t e := by
  obtain ⟨stats, -, rfl⟩ := Option.map_eq_some_iff.1 h
  exact .restarted hrestart rfl rfl rfl rfl rfl

theorem step_turnEffect {p t : MapPlayer} {e : PlayerTurn} (h : p.step e = some t) : TurnEffect p t e := by
  cases e with
  | advance now =>
    simp only [step] at h
    split at h <;> cases h
    exact .kept nofun rfl nofun rfl rfl rfl rfl id
  | command around command =>
    obtain rfl := Option.some.inj h
    unfold processPlayerAction
    cases halive : p.actor.life.isAlive with
    | true =>
      rw [if_pos rfl]
      cases command with
      | move kind arg rot target ts => exact .kept nofun rfl nofun rfl rfl rfl rfl id
      | setMovementAnimation animation => exact .animated around animation halive rfl
      | selectTarget target => exact .kept nofun rfl nofun rfl rfl rfl rfl id
      | attack target =>
        unfold applyCommand Mover.applyCommand
        dsimp only
        split
        · exact .kept nofun rfl nofun rfl rfl rfl rfl id
        · exact .kept nofun rfl nofun rfl rfl rfl rfl id
    | false =>
      rw [if_neg (by simp)]
      exact .kept nofun rfl (fun _ _ _ => halive) rfl rfl rfl rfl id
  | stats stats =>
    cases h
    exact .kept nofun rfl nofun rfl rfl rfl rfl fun he => ((Bool.and_eq_true _ _).mp he).1
  | hpDepleted =>
    obtain rfl := Option.some.inj h
    unfold beginActorDying
    cases p.actor.life.beginDying p.simNow with
    | none => exact .kept nofun rfl nofun rfl rfl rfl rfl id
    | some life => exact .kept nofun rfl nofun rfl rfl rfl rfl id
  | hitWhileDying =>
    obtain rfl := Option.some.inj h
    unfold finalizeDyingActorDeath
    split
    · exact .kept nofun rfl nofun rfl rfl rfl rfl id
    · exact .kept nofun rfl nofun rfl rfl rfl rfl id
  | age =>
    obtain rfl := Option.some.inj h
    unfold age
    split
    · split
      · exact .kept nofun rfl nofun rfl rfl rfl rfl id
      · exact .kept nofun rfl nofun rfl rfl rfl rfl id
    · exact .kept nofun rfl nofun rfl rfl rfl rfl id
  | restart intent =>
    simp only [step, processRequestedRestart] at h
    split at h
    · rename_i hrestart
      exact turnEffect_restart hrestart h
    · rename_i hrestart
      cases h
      exact .kept nofun (Bool.eq_false_iff.2 hrestart) nofun rfl rfl rfl rfl id
  | forceRespawn =>
    simp only [step, forceRespawn] at h
    split at h
    · rename_i hdue
      exact turnEffect_restart hdue h
    · rename_i hdue
      cases h
      exact .kept nofun (Bool.eq_false_iff.2 hdue) nofun rfl rfl rfl rfl id
  | tick =>
    obtain ⟨u, hu, rfl⟩ := Option.map_eq_some_iff.1 h
    exact .tick u hu rfl

end MapPlayer

/-! ## A novice in a fight -/

/-- Five seconds to run anywhere, fifteen to walk. -/
def trainingGround : Surroundings where
  geometry := ⟨fun _ goal _ _ => goal, fun _ target => target, id, fun animation _ _ =>
    if animation = .run then 5000 else 15000,
    fun _ _ rot => rot⟩
  validatePlayerAttack := fun _ _ => true
  entityPosition := fun _ => none
  packetNow := 0

def moveOn (ts : Nat) : PlayerTurn := .command trainingGround (.move .move 0 0 ⟨0, 0⟩ ts)

def strike : PlayerTurn := .command trainingGround (.attack ⟨1⟩)

def enterNovice [GrowthRng] (currentStamina : Option Int) : Option MapPlayer :=
  let gameplay := { noviceBootstrap with currentStamina }
  match (PlayerStatRules.mk noviceClasses noviceTable).hydratePlayer gameplay with
  | some (some hydrated) => MapPlayer.enter 0 ⟨⟨7⟩, ⟨3⟩, gameplay⟩ hydrated ⟨0, 0⟩
  | some none | none => none

theorem enterNovice_eq_some [GrowthRng] {currentStamina : Option Int} {start : MapPlayer}
    (h : enterNovice currentStamina = some start) :
    ∃ msg hydrated, (PlayerStatRules.mk noviceClasses noviceTable).hydratePlayer msg.gameplay = some (some hydrated) ∧
      MapPlayer.enter 0 msg hydrated ⟨0, 0⟩ = some start := by
  unfold enterNovice at h
  dsimp only at h
  split at h
  · rename_i hydrated hh
    exact ⟨_, hydrated, hh, h⟩
  · cases h
  · cases h

end Zohar.Sim
