/-
How a core connection ends once its login is through, from zohar-gamesrv/src/handlers.rs, handlers/select.rs,
loading.rs, ingame.rs, ingame/relocation.rs and runtime.rs. Every phase has calls that can fail, and each end carries
what is to become of the session's lease. The lease is given up on every way out but one: a loading phase that finds no
empire panics, and nobody is left to release the row.
-/
import Zohar.Game.Heartbeat
import Zohar.Game.Placement
import Zohar.Replication.Events
import Zohar.Stats.Hydrate

namespace Zohar.Game

open Zohar.Lib Zohar.Db Zohar.Net Zohar.Stats
open Zohar.Replication (EntityId)

/-! ## The connection's surroundings -/

/-- The content of a core is loaded from a catalog that was accepted. -/
structure CoreDeps where
  connection : Db.Connection
  username : String
  staleThresholdSecs : Int
  mapId : MapId
  playerStats : PlayerStatRules
  catalog : ContentCatalog
  coords : ContentCoords
  accepted : ContentCoords.fromCatalog catalog = .ok coords

/-- The effects of a packet, without what they send. -/
structure PhaseEffects where
  disconnect : Option PhaseError := none
  transition : Bool := false

/-- `apply_effects` and the phase change: `none` where the loop goes on. -/
def PhaseEffects.apply (effects : PhaseEffects) (sendOk phaseOk : Bool) : Option (Except PhaseError Unit) :=
  if !sendOk then some (.error (.other "send"))
  else
    match effects.disconnect with
    | some e => some (.error e)
    | none => if effects.transition then some (if phaseOk then .ok () else .error (.other "send")) else none

/-! ## Select -/

/-- The packets of the phase with what the database answers; `valid` stands for the checks before the call. -/
inductive SelectPacket where
  | submitEmpireChoice (update : Except DbError Unit)
  | requestCreatePlayer (valid : Bool) (create : Except DbError Bool)
  | requestDeletePlayer (valid : Bool) (delete : Except DbError Bool)
  | submitPlayerChoice (player : Except DbError (Option PlayerId))

def handleSelectPacket : SelectPacket → Except PhaseError PhaseEffects
  | .submitEmpireChoice update => (update.mapError fun _ => PhaseError.other "database").map fun _ => {}
  | .requestCreatePlayer valid create =>
    if !valid then .ok {} else (create.mapError fun _ => PhaseError.other "database").map fun _ => {}
  | .requestDeletePlayer valid delete =>
    if !valid then .ok {} else (delete.mapError fun _ => PhaseError.other "database").map fun _ => {}
  | .submitPlayerChoice player =>
    (player.mapError fun _ => PhaseError.other "database").map fun player => { transition := player.isSome }

/-! ## Loading -/

/-- The columns that the gameplay bootstrap is built from. -/
abbrev PlayerStatsBootstrapRow := PlayerGameplayBootstrap

def deadReconnectHp : Int := 1

def normalizeLoadedHp (currentHp : Option Int) : Option Int := currentHp.map fun hp =>
    if hp ≤ 0 then deadReconnectHp else hp

def gameplayBootstrapFromRow (player : PlayerStatsBootstrapRow) : PlayerGameplayBootstrap :=
  { player with currentHp := normalizeLoadedHp player.currentHp }

structure LoadedPlayer where
  mapId : MapId
  initialPos : LocalPos

/-- What the reads and the map runtime answer to one `run_loading`. -/
structure LoadingCalls where
  player : Except DbError (Option PlayerStatsBootstrapRow)
  runtimeState : Except DbError (Option RuntimeRow)
  profile : Except DbError (Option ProfileRow)
  netId : Except String EntityId

inductive LoadingStart where
  | panicked
  | ended (sessionEnd : SessionEnd)
  | loaded (entry : LoadedPlayer)

/-- `.ok().flatten().and_then(|profile| profile.empire)` -/
def profileEmpire : Except DbError (Option ProfileRow) → Option Empire
  | .ok (some profile) => profile.empire
  | .ok none => none
  | .error _ => none

section
variable [GrowthRng]

/-- `run_loading` up to its driven part. -/
def runLoading (deps : CoreDeps) (isDraining : Bool) (calls : LoadingCalls) : LoadingStart :=
  let release := LoadingStart.ended (.afterLogin deps.username .release)
  if isDraining then release
  else
    match calls.player, calls.runtimeState with
    | .ok (some player), .ok runtimeState =>
      match profileEmpire calls.profile with
      -- "need empire for fallback spawn"
      | none => .panicked
      | some empire =>
        match deps.coords.resolveSpawnForPlayer runtimeState empire with
        | none => .panicked
        | some spawn =>
          match calls.netId with
          | .error _ => release
          | .ok _ =>
            match deps.playerStats.hydratePlayer (gameplayBootstrapFromRow player) with
            -- an assertion fails
            | none => .panicked
            | some none => release
            | some (some _) => .loaded ⟨spawn.mapId, spawn.localPos⟩
    | _, _ => release

end

inductive LoadingPacket where
  | submitClientVersion | signalLoadingComplete

def handleLoadingPacket : LoadingPacket → PhaseEffects
  | .submitClientVersion => {}
  | .signalLoadingComplete => { transition := true }

/-! ## In game -/

/-- Three chat commands end the phase. -/
inductive InGamePacket where
  | phaseSelect | logout | quit | other

def handleInGamePacket : InGamePacket → PhaseEffects
  | .phaseSelect => { transition := true }
  | .logout => { disconnect := some (disconnect "client requested logout") }
  | .quit => { disconnect := some (disconnect "client requested quit") }
  | .other => {}

inductive RelocationError where
  | unknownWorldDestination | localDestinationOutOfBounds | unknownMapCode | ambiguousTownSpawn
  | routingUnavailable | nonIpv4Endpoint | commitFailed
  deriving DecidableEq, Repr

def handoffDisconnect (reason : String) : PhaseError := .disconnect reason .handoffPrepared

/-- A call of `commit_player_exit`: it does not get into the queue, its reply comes, or the reply does not come in time
and the worker may still get to it. -/
inductive CommitCall where
  | refused
  | replied (now : Int) (fault : Option ExitStage)
  | lost

/-! ## The connection -/

/-- Where the connection stands. Before a loop runs, the phase has yet to send its first packets. -/
inductive CoreStage where
  | select (looping : Bool)
  | loadingStart
  | loading (entry : LoadedPlayer) (looping : Bool)
  | inGameStart (entry : LoadedPlayer)
  | inGame (enteredMap looping : Bool)
  /-- `finalize_ingame_result`, and its calls one by one. -/
  | finalizing (result : Except SessionEnd Unit)
  | flushing (snapshot : PlayerSnapshot)
  | exiting (snapshot : PlayerSnapshot)
  /-- The `match` of `handle_conn_core`. -/
  | closing (sessionEnd : SessionEnd)
  | ended (sessionEnd : SessionEnd)
  | panicked

/-- `attempted` says that an exit commit was tried and did not report success, `pending` what the worker may still
run. -/
structure CoreSession where
  stage : CoreStage
  tracker : SessionTracker
  handshake : HandshakeState
  db : GameDb
  attempted : Bool
  pending : List (PlayerExitKind × PlayerSnapshot)

/-- A connection whose login has just passed on to the selection. -/
def CoreSession.start (tracker : SessionTracker) (handshake : HandshakeState) (db : GameDb) : CoreSession :=
  ⟨.select false, tracker, handshake, db, false, []⟩

inductive PhasePacket where
  | select (packet : SelectPacket)
  | loading (packet : LoadingPacket)
  | inGame (packet : InGamePacket)

/-- `late` is the worker's turn with a commit whose caller has given up, `other` a statement of anyone else. -/
inductive CoreEvent where
  | enter (isDraining : Bool) (summaries : Except DbError Unit) (sendOk : Bool)
  | drained
  | closed
  | recvFailed (text : String)
  | sendFailed
  | tick (now : Instant) (call : DbCall) (sendOk : Bool)
  | control (packet : ControlC2s) (now : Instant) (sendOk : Bool)
  | packet (packet : PhasePacket) (now : Instant) (sendOk phaseOk : Bool)
  | relocate (route : Except RelocationError Unit) (snapshot : Except String PlayerSnapshot) (commit : CommitCall)
    (sendOk : Bool)
  | load (isDraining : Bool) (calls : LoadingCalls)
  | prepare (isDraining enteredMap : Bool)
  | leave (snapshot : Except String PlayerSnapshot)
  | flush (reported : Bool)
  | exit (commit : CommitCall)
  | close
  | late (i : Nat) (now : Int) (fault : Option ExitStage)
  | other (now : Int) (op : DbOp)

/-- `run_phase`, and what `run_core_connection` and `run_ingame` make of its result. -/
def CoreStage.finish (deps : CoreDeps) (stage : CoreStage) (result : Except PhaseError Unit) : CoreStage :=
  match stage, result.mapError (PhaseError.sessionEnd (.afterLogin deps.username .release)) with
  | .inGame true _, result => .finalizing result
  | .inGame false _, .ok () => .select false
  | .select _, .ok () => .loadingStart
  | .loading entry _, .ok () => .inGameStart entry
  | _, .error e => .closing e
  | stage, .ok () => stage

def CoreStage.isLooping : CoreStage → Bool
  | .select looping | .loading _ looping | .inGame _ looping => looping
  | _ => false

/-- The start of a driven phase: the drain check, the calls of `handle_enter`, and the packets it sends. -/
def CoreStage.enter (deps : CoreDeps) (isDraining : Bool) (summaries : Except DbError Unit) (sendOk : Bool)
    (stage : CoreStage) : Option CoreStage :=
  let sent (next : CoreStage) := some (if sendOk then next else stage.finish deps (.error (.other "send")))
  let draining := some (stage.finish deps (.error (disconnect "server draining")))
  match stage with
  | .select false =>
    if isDraining then draining
    else
      match summaries with
      | .error _ => some (stage.finish deps (.error (.other "database")))
      | .ok () => sent (.select true)
  | .loading entry false =>
    if isDraining then draining
    else
      match deps.coords.handleEnterPos entry.mapId entry.initialPos with
      -- "resolved local spawn position must map to world coordinates"
      | none => some .panicked
      | some _ => sent (.loading entry true)
  | .inGame enteredMap false => if isDraining then draining else sent (.inGame enteredMap true)
  | _ => none

namespace CoreSession

/-- A turn of a loop, with the result that may end the phase. -/
def turn (deps : CoreDeps) (w : CoreSession) (result : Option (Except PhaseError Unit)) : Option CoreSession :=
  if w.stage.isLooping then
    match result with
    | none => some w
    | some result => some { w with stage := w.stage.finish deps result }
  else none

def handleTick (deps : CoreDeps) (w : CoreSession) (now : Instant) (call : DbCall) (sendOk : Bool) :
    Option CoreSession :=
  let answer :=
    match w.stage with
    | .inGame _ _ => Game.handleSessionTick w.tracker w.handshake deps.username now call w.db
    | _ => Game.handleTick w.tracker deps.username now call w.db
  match answer with
  | (.ok _, db) => { w with db }.turn deps (PhaseEffects.apply {} sendOk true)
  | (.error e, db) => { w with db }.turn deps (PhaseEffects.apply { disconnect := some e } sendOk true)

def handleControl (deps : CoreDeps) (w : CoreSession) (packet : ControlC2s) (now : Instant) (sendOk : Bool) :
    Option CoreSession :=
  let w := { w with tracker := w.tracker.markRx now }
  match handleSessionControl packet now w.handshake with
  | (.error e, handshake) => { w with handshake }.turn deps (some (.error e))
  | (.ok (.handled _), handshake) => { w with handshake }.turn deps (PhaseEffects.apply {} sendOk true)
  | (.ok (.reject reason), handshake) =>
    { w with handshake }.turn deps (PhaseEffects.apply { disconnect := some (disconnect reason) } sendOk true)

def handlePacket (deps : CoreDeps) (w : CoreSession) (packet : PhasePacket) (now : Instant) (sendOk phaseOk : Bool) :
    Option CoreSession :=
  let w := { w with tracker := w.tracker.markRx now }
  let handled (effects : Except PhaseError PhaseEffects) : Option CoreSession :=
    match effects with
    | .error e => w.turn deps (some (.error e))
    | .ok effects => w.turn deps (effects.apply sendOk phaseOk)
  match w.stage, packet with
  | .select _, .select packet => handled (handleSelectPacket packet)
  | .loading _ _, .loading packet => handled (.ok (handleLoadingPacket packet))
  | .inGame _ _, .inGame packet => handled (.ok (handleInGamePacket packet))
  | _, _ => none

/-- `commit_player_exit` of the handlers: whether it reports success. -/
def commitPlayerExit (deps : CoreDeps) (w : CoreSession) (exitKind : PlayerExitKind) (snapshot : PlayerSnapshot) :
    CommitCall → Bool × CoreSession
  | .refused => (false, { w with attempted := true })
  | .replied now fault =>
    match Db.commitPlayerExit now fault exitKind deps.username deps.connection.serverId deps.connection.connectionId
      snapshot w.db with
    | (.ok (), db) => (true, { w with db })
    | (.error _, db) => (false, { w with db, attempted := true })
  | .lost => (false, { w with attempted := true, pending := w.pending ++ [(exitKind, snapshot)] })

/-- `dispatch_handoff`, with the route that was resolved for it. -/
def dispatchHandoff (deps : CoreDeps) (w : CoreSession) (route : Except RelocationError Unit)
    (snapshot : Except String PlayerSnapshot) (commit : CommitCall) :
    Except RelocationError PhaseEffects × CoreSession :=
  match route, snapshot with
  | .error e, _ => (.error e, w)
  | .ok (), .error _ => (.error .commitFailed, w)
  | .ok (), .ok snapshot =>
    match w.commitPlayerExit deps .handoff snapshot commit with
    | (true, w) => (.ok { disconnect := some (handoffDisconnect "relocation handoff") }, w)
    | (false, w) => (.error .commitFailed, w)

/-- A relocation that fails is told to the player, who plays on. -/
def relocate (deps : CoreDeps) (w : CoreSession) (route : Except RelocationError Unit)
    (snapshot : Except String PlayerSnapshot) (commit : CommitCall) (sendOk : Bool) : Option CoreSession :=
  match w.stage with
  | .inGame _ true =>
    match w.dispatchHandoff deps route snapshot commit with
    | (.ok effects, w) => w.turn deps (effects.apply sendOk true)
    | (.error _, w) => w.turn deps (PhaseEffects.apply {} sendOk true)
  | _ => none

/-- `leave_player_and_snapshot` of `finalize_ingame_result`; after a handoff the player is only taken off the map. -/
def leave (deps : CoreDeps) (w : CoreSession) (snapshot : Except String PlayerSnapshot) : Option CoreSession :=
  match w.stage with
  | .finalizing (.error (.handoff username)) => some { w with stage := .closing (.handoff username) }
  | .finalizing (.error .beforeLogin) => some { w with stage := .closing .beforeLogin }
  | .finalizing (.error (.afterLogin username _)) =>
    match snapshot with
    | .ok snapshot => some { w with stage := .exiting snapshot }
    | .error _ => some { w with stage := .closing (.afterLogin username .release) }
  | .finalizing (.ok ()) =>
    match snapshot with
    | .ok snapshot => some { w with stage := .flushing snapshot }
    | .error _ => some { w with stage := .closing (.afterLogin deps.username .release) }
  | _ => none

/-- `run_loading` where it has been called. -/
def load [GrowthRng] (deps : CoreDeps) (w : CoreSession) (isDraining : Bool) (calls : LoadingCalls) :
    Option CoreSession :=
  match w.stage with
  | .loadingStart =>
    match runLoading deps isDraining calls with
    | .panicked => some { w with stage := .panicked }
    | .ended sessionEnd => some { w with stage := .closing sessionEnd }
    | .loaded entry => some { w with stage := .loading entry false }
  | _ => none

/-- `prepare_ingame`. A map that does not take the player leaves it in game, with nothing to leave later. -/
def prepare (deps : CoreDeps) (w : CoreSession) (isDraining enteredMap : Bool) : Option CoreSession :=
  match w.stage with
  | .inGameStart entry =>
    match prepareIngame isDraining deps.mapId entry.mapId with
    | .error _ => some { w with stage := .closing (.afterLogin deps.username .release) }
    | .ok () => some { w with stage := .inGame enteredMap false }
  | _ => none

/-- The answer to `flush_player_state` on the way back to the selection. -/
def flush (w : CoreSession) (reported : Bool) : Option CoreSession :=
  match w.stage with
  | .flushing snapshot => some { w with stage := if reported then .select false else .exiting snapshot }
  | _ => none

/-- The exit commit of `finalize_ingame_result`. -/
def exit (deps : CoreDeps) (w : CoreSession) (commit : CommitCall) : Option CoreSession :=
  match w.stage with
  | .exiting snapshot =>
    match w.commitPlayerExit deps .disconnect snapshot commit with
    | (true, w) => some { w with stage := .closing (.afterLogin deps.username .alreadyReleased) }
    | (false, w) => some { w with stage := .closing (.afterLogin deps.username .retainUntilStale) }
  | _ => none

/-- The last part of `handle_conn_core`; the release itself does not fail. -/
def close (deps : CoreDeps) (w : CoreSession) : Option CoreSession :=
  match w.stage with
  | .closing sessionEnd =>
    some { w with stage := .ended sessionEnd, db := endSession deps.connection false w.db sessionEnd }
  | _ => none

/-- The worker gets to a commit that nobody waits for any more. -/
def late (deps : CoreDeps) (w : CoreSession) (i : Nat) (now : Int) (fault : Option ExitStage) : Option CoreSession :=
  match w.pending[i]? with
  | some (exitKind, snapshot) =>
    some { w with
      db := (Db.commitPlayerExit now fault exitKind deps.username deps.connection.serverId deps.connection.connectionId
        snapshot w.db).2
      pending := w.pending.eraseIdx i }
  | none => none

end CoreSession

/-- One step of a core connection, or of the database beside it. -/
def coreStep [GrowthRng] (deps : CoreDeps) (w : CoreSession) : CoreEvent → Option CoreSession
  | .enter isDraining summaries sendOk =>
    (w.stage.enter deps isDraining summaries sendOk).map fun stage => { w with stage }
  | .drained => w.turn deps (some (.error (disconnect "server draining")))
  | .closed => w.turn deps (some (.error (disconnect "connection closed")))
  | .recvFailed text => w.turn deps (some (.error (.other text)))
  | .sendFailed => w.turn deps (some (.error (.other "send")))
  | .tick now call sendOk => w.handleTick deps now call sendOk
  | .control packet now sendOk => w.handleControl deps packet now sendOk
  | .packet packet now sendOk phaseOk => w.handlePacket deps packet now sendOk phaseOk
  | .relocate route snapshot commit sendOk => w.relocate deps route snapshot commit sendOk
  | .load isDraining calls => w.load deps isDraining calls
  | .prepare isDraining enteredMap => w.prepare deps isDraining enteredMap
  | .leave snapshot => w.leave deps snapshot
  | .flush reported => w.flush reported
  | .exit commit => w.exit deps commit
  | .close => w.close deps
  | .late i now fault => w.late deps i now fault
  | .other now op =>
    if op.connection = some deps.connection then
      none
    else some { w with db := op.exec deps.staleThresholdSecs now w.db }

/-! ## Whose row it is at the end -/

def CoreDeps.OwnsLease (deps : CoreDeps) (db : GameDb) : Prop := OwnsSession db deps.username deps.connection

/-- A connection that has ended has given its lease up, or it keeps it because an exit commit of its own did not report
success; and none panics. -/
def Resolved (deps : CoreDeps) (w : CoreSession) : Prop :=
  match w.stage with
  | .panicked => False
  | .ended sessionEnd =>
    deps.OwnsLease w.db → sessionEnd = .afterLogin deps.username .retainUntilStale ∧ w.attempted = true
  | _ => True

/-- A loading phase that gets to its profile lookup finds a profile with an empire, and one that gets to the player's
statistics finds tables that give no negative limit or capacity. -/
def LoadsSafely [GrowthRng] (deps : CoreDeps) : CoreEvent → Prop
  | .load isDraining calls => isDraining = false → ∀ player runtimeState, calls.player = .ok (some player) →
      calls.runtimeState = .ok runtimeState →
      (∃ profile empire, calls.profile = .ok (some profile) ∧ profile.empire = some empire) ∧
      (∀ netId, calls.netId = .ok netId → deps.playerStats.HydratesSafely (gameplayBootstrapFromRow player))
  | _ => True

/-- What an end promises of the row. -/
def EndGood (deps : CoreDeps) (db : GameDb) (attempted : Bool) : SessionEnd → Prop
  | .beforeLogin => False
  | .afterLogin username .release => username = deps.username
  | .afterLogin username .alreadyReleased => username = deps.username ∧ ¬ deps.OwnsLease db
  | .afterLogin username .retainUntilStale => username = deps.username ∧ attempted = true
  | .handoff _ => ¬ deps.OwnsLease db

def StageGood (deps : CoreDeps) (db : GameDb) (attempted : Bool) : CoreStage → Prop
  | .loading entry _ => (deps.coords.handleEnterPos entry.mapId entry.initialPos).isSome
  | .finalizing (.error sessionEnd) => EndGood deps db attempted sessionEnd
  | .closing sessionEnd => EndGood deps db attempted sessionEnd
  | .ended sessionEnd => EndGood deps db attempted sessionEnd ∧
      (sessionEnd = .afterLogin deps.username .release → ¬ deps.OwnsLease db)
  | _ => True

def CoreSession.Good (deps : CoreDeps) (w : CoreSession) : Prop := StageGood deps w.db w.attempted w.stage

section
variable {deps : CoreDeps} {db db' : GameDb} {attempted attempted' : Bool}

theorem EndGood.mono {sessionEnd : SessionEnd} (h : EndGood deps db attempted sessionEnd)
    (hdb : deps.OwnsLease db' → deps.OwnsLease db) (ha : attempted = true → attempted' = true) :
    EndGood deps db' attempted' sessionEnd := by
  cases sessionEnd with
  | beforeLogin => exact h
  | handoff username => exact mt hdb h
  | afterLogin username leaseAction =>
    cases leaseAction with
    | release => exact h
    | alreadyReleased => exact ⟨h.1, mt hdb h.2⟩
    | retainUntilStale => exact ⟨h.1, ha h.2⟩

/-- A stage keeps its promise while nobody hands the row to the connection. -/
theorem StageGood.mono {stage : CoreStage} (h : StageGood deps db attempted stage)
    (hdb : deps.OwnsLease db' → deps.OwnsLease db) (ha : attempted = true → attempted' = true) :
    StageGood deps db' attempted' stage := by
  cases stage with
  | loading entry looping => exact h
  | finalizing result =>
    cases result with
    | error sessionEnd => exact EndGood.mono h hdb ha
    | ok _ => trivial
  | closing sessionEnd => exact EndGood.mono h hdb ha
  | ended sessionEnd => exact ⟨h.1.mono hdb ha, fun hrelease => mt hdb (h.2 hrelease)⟩
  | _ => trivial

/-- With the promises of its stage kept, only a panic leaves the lease unresolved. -/
theorem CoreSession.Good.resolved_iff {w : CoreSession} (h : w.Good deps) : Resolved deps w ↔ w.stage ≠ .panicked := by
  obtain ⟨stage, tracker, handshake, db, attempted, pending⟩ := w
  cases stage with
  | panicked => exact iff_of_false id fun hne => hne rfl
  | ended sessionEnd =>
    refine iff_of_true (fun how => ?_) CoreStage.noConfusion
    obtain ⟨hend, hrelease⟩ := h
    cases sessionEnd with
    | beforeLogin => exact hend.elim
    | handoff username => exact absurd how hend
    | afterLogin username leaseAction =>
      cases leaseAction with
      | release =>
        cases hend
        exact absurd how (hrelease rfl)
      | alreadyReleased => exact absurd how hend.2
      | retainUntilStale =>
        obtain ⟨rfl, ha⟩ := hend
        exact ⟨rfl, ha⟩
  | _ => exact iff_of_true trivial CoreStage.noConfusion

/-! ## Errors and turns -/

def PhaseError.isHandoff : PhaseError → Bool
  | .disconnect _ .handoffPrepared => true
  | _ => false

/-- Only a handoff changes the end that `run_phase` is given. -/
theorem PhaseError.sessionEnd_good {e : PhaseError} (h : e.isHandoff = true → ¬ deps.OwnsLease db) :
    EndGood deps db attempted (e.sessionEnd (.afterLogin deps.username .release)) := by
  cases e with
  | other text => exact rfl
  | disconnect reason disposition =>
    cases disposition with
    | standard => exact rfl
    | handoffPrepared => exact h rfl

/-- A result of a phase that does not claim a handoff of a row that is still owned. -/
def ResultGood (deps : CoreDeps) (db : GameDb) (result : Except PhaseError Unit) : Prop :=
  ∀ e, result = .error e → e.isHandoff = true → ¬ deps.OwnsLease db

theorem resultGood_error {e : PhaseError} (h : e.isHandoff = false) : ResultGood deps db (.error e) := by
  rintro e' he hhandoff
  cases he
  rw [h] at hhandoff
  cases hhandoff

/-- The stages that `run_phase` drives. -/
def CoreStage.isDriven : CoreStage → Bool
  | .select _ | .loading _ _ | .inGame _ _ => true
  | _ => false

theorem CoreStage.isDriven_of_isLooping {stage : CoreStage} (h : stage.isLooping = true) : stage.isDriven = true := by
  cases stage <;> first | rfl | cases h

theorem finish_good {stage : CoreStage} {result : Except PhaseError Unit} (hdriven : stage.isDriven = true)
    (hresult : ResultGood deps db result) :
    StageGood deps db attempted (stage.finish deps result) ∧ stage.finish deps result ≠ .panicked := by
  cases result with
  | error e =>
    have hend : EndGood deps db attempted (e.sessionEnd (.afterLogin deps.username .release)) :=
      PhaseError.sessionEnd_good (hresult e rfl)
    cases stage with
    | select looping => exact ⟨hend, CoreStage.noConfusion⟩
    | loading entry looping => exact ⟨hend, CoreStage.noConfusion⟩
    | inGame enteredMap looping =>
      cases enteredMap with
      | false => exact ⟨hend, CoreStage.noConfusion⟩
      | true => exact ⟨hend, CoreStage.noConfusion⟩
    | _ => cases hdriven
  | ok _ =>
    cases stage with
    | select looping => exact ⟨trivial, CoreStage.noConfusion⟩
    | loading entry looping => exact ⟨trivial, CoreStage.noConfusion⟩
    | inGame enteredMap looping =>
      cases enteredMap with
      | false => exact ⟨trivial, CoreStage.noConfusion⟩
      | true => exact ⟨trivial, CoreStage.noConfusion⟩
    | _ => cases hdriven

/-- What a step that does not load leaves behind. -/
structure Stays (deps : CoreDeps) (w : CoreSession) : Prop where
  good : w.Good deps
  alive : w.stage ≠ .panicked

theorem turn_stays {w t : CoreSession} (h : w.Good deps) {result : Option (Except PhaseError Unit)}
    (hresult : ∀ r, result = some r → ResultGood deps w.db r) (ht : w.turn deps result = some t) : Stays deps t := by
  simp only [CoreSession.turn] at ht
  split at ht
  · rename_i hloop
    split at ht
    · cases ht
      refine ⟨h, fun hpanic => ?_⟩
      rw [hpanic] at hloop
      cases hloop
    · rename_i r
      cases ht
      obtain ⟨hgood, halive⟩ : StageGood deps w.db w.attempted (w.stage.finish deps r) ∧
          w.stage.finish deps r ≠ .panicked :=
        finish_good (CoreStage.isDriven_of_isLooping hloop) (hresult r rfl)
      exact ⟨hgood, halive⟩
  · cases ht

/-- The effects of a handler are good where their disconnect is. -/
theorem apply_good {effects : PhaseEffects} {sendOk phaseOk : Bool}
    (h : ∀ e, effects.disconnect = some e → e.isHandoff = true → ¬ deps.OwnsLease db) :
    ∀ r, effects.apply sendOk phaseOk = some r → ResultGood deps db r := by
  intro r hr
  unfold PhaseEffects.apply at hr
  split at hr
  · cases hr
    exact resultGood_error rfl
  · split at hr
    · rename_i e he
      cases hr
      rintro e' he' hhandoff
      cases he'
      exact h e he hhandoff
    · split at hr
      · cases hr
        cases phaseOk with
        | true => rintro e ⟨⟩
        | false => exact resultGood_error rfl
      · cases hr

theorem apply_good_of_standard {effects : PhaseEffects} {sendOk phaseOk : Bool}
    (h : ∀ e, effects.disconnect = some e → e.isHandoff = false) :
    ∀ r, effects.apply sendOk phaseOk = some r → ResultGood deps db r := by
  refine apply_good fun e he hhandoff => ?_
  rw [h e he] at hhandoff
  cases hhandoff

/-! ## The steps of the phases -/

/-- A tick refreshes the row of the account, whoever's it is. -/
theorem handleTick_stays {w t : CoreSession} {now : Instant} {call : DbCall} {sendOk : Bool} (h : w.Good deps)
    (ht : w.handleTick deps now call sendOk = some t) : Stays deps t := by
  have hdb : ∀ more, deps.OwnsLease (sessionTick w.tracker deps.username more now call w.db).2 →
      deps.OwnsLease w.db := by
    intro more
    unfold sessionTick
    split
    · rw [DbCall.exec_snd]
      split
      · exact id
      · exact DbOp.ownsSession_of_exec 0 call.now (.session (.updateSessionHeartbeat deps.username))
          (fun hgrant => by cases hgrant)
    · exact id
    · exact id
  unfold CoreSession.handleTick at ht
  obtain ⟨more, hanswer⟩ : ∃ more, (match w.stage with
      | .inGame _ _ => handleSessionTick w.tracker w.handshake deps.username now call w.db
      | _ =>
        handleTick w.tracker deps.username now call w.db) = sessionTick w.tracker deps.username more now call w.db := by
    split
    · exact ⟨_, rfl⟩
    · exact ⟨_, rfl⟩
  simp only [hanswer] at ht
  replace hdb := hdb more
  split at ht
  · rename_i sends db hres
    rw [hres] at hdb
    have h' : ({ w with db } : CoreSession).Good deps := StageGood.mono h hdb id
    refine turn_stays h' (apply_good_of_standard ?_) ht
    rintro e ⟨⟩
  · rename_i e db hres
    rw [hres] at hdb
    have h' : ({ w with db } : CoreSession).Good deps := StageGood.mono h hdb id
    refine turn_stays h' (apply_good_of_standard ?_) ht
    rintro e' ⟨⟩
    unfold sessionTick at hres
    split at hres
    · cases hres
    · cases hres
      rfl
    · cases hres

theorem handleControl_stays {w t : CoreSession} {packet : ControlC2s} {now : Instant} {sendOk : Bool} (h : w.Good deps)
    (ht : w.handleControl deps packet now sendOk = some t) : Stays deps t := by
  have h' : ∀ handshake, ({ w with tracker := w.tracker.markRx now, handshake } : CoreSession).Good deps := fun _ => h
  simp only [CoreSession.handleControl] at ht
  split at ht
  · rename_i e handshake hres
    refine turn_stays (h' handshake) ?_ ht
    rintro r ⟨⟩
    refine resultGood_error ?_
    unfold handleSessionControl at hres
    split at hres
    · cases hres
    · split at hres <;> cases hres
      rfl
    · cases hres
  · refine turn_stays (h' _) (apply_good_of_standard ?_) ht
    rintro e ⟨⟩
  · refine turn_stays (h' _) (apply_good_of_standard ?_) ht
    rintro e ⟨⟩
    rfl

theorem handleSelectPacket_standard (packet : SelectPacket) :
    (∀ e, handleSelectPacket packet = .error e → e.isHandoff = false) ∧
    ∀ effects, handleSelectPacket packet = .ok effects → effects.disconnect = none := by
  have hcall : ∀ {α : Type} (answer : Except DbError α) (f : α → PhaseEffects), (∀ a, (f a).disconnect = none) →
      (∀ e, (answer.mapError fun _ => PhaseError.other "database").map f = .error e → e.isHandoff = false) ∧
      ∀ effects, (answer.mapError fun _ => PhaseError.other "database").map f = .ok effects →
        effects.disconnect = none := by
    intro α answer f hf
    cases answer with
    | error e => exact ⟨by rintro _ ⟨⟩; rfl, by rintro _ ⟨⟩⟩
    | ok a => exact ⟨by rintro _ ⟨⟩, by rintro _ ⟨⟩; exact hf a⟩
  cases packet with
  | submitEmpireChoice update => exact hcall update _ fun _ => rfl
  | submitPlayerChoice player => exact hcall player _ fun _ => rfl
  | requestCreatePlayer valid create =>
    cases valid with
    | false => exact ⟨by rintro _ ⟨⟩, by rintro _ ⟨⟩; rfl⟩
    | true => exact hcall create _ fun _ => rfl
  | requestDeletePlayer valid delete =>
    cases valid with
    | false => exact ⟨by rintro _ ⟨⟩, by rintro _ ⟨⟩; rfl⟩
    | true => exact hcall delete _ fun _ => rfl

theorem handlePacket_stays {w t : CoreSession} {packet : PhasePacket} {now : Instant} {sendOk phaseOk : Bool}
    (h : w.Good deps) (ht : w.handlePacket deps packet now sendOk phaseOk = some t) : Stays deps t := by
  have h' : ({ w with tracker := w.tracker.markRx now } : CoreSession).Good deps := h
  unfold CoreSession.handlePacket at ht
  dsimp only at ht
  split at ht
  · rename_i packet _
    obtain ⟨herror, hok⟩ := handleSelectPacket_standard packet
    split at ht
    · rename_i e he
      refine turn_stays h' ?_ ht
      rintro r ⟨⟩
      exact resultGood_error (herror e he)
    · rename_i effects heffects
      refine turn_stays h' (apply_good_of_standard ?_) ht
      intro e he
      rw [hok effects heffects] at he
      cases he
  · rename_i packet _
    refine turn_stays h' (apply_good_of_standard ?_) ht
    cases packet <;> rintro e ⟨⟩
  · rename_i packet _
    refine turn_stays h' (apply_good_of_standard ?_) ht
    cases packet <;> rintro e ⟨⟩ <;> rfl
  · cases ht

/-- A commit never makes the row the connection's. -/
theorem commitPlayerExit_owns {exitKind : PlayerExitKind} {snapshot : PlayerSnapshot} {now : Int}
    {fault : Option ExitStage} :
    deps.OwnsLease (Db.commitPlayerExit now fault exitKind deps.username deps.connection.serverId
      deps.connection.connectionId
      snapshot db).2 → deps.OwnsLease db :=
  DbOp.ownsSession_of_exec 0 now (.commit fault exitKind deps.username deps.connection snapshot)
    (fun hgrant => by cases hgrant)

/-- What an exit commit does: it reports success and the row is given up, or the attempt is on record. -/
structure Committed (deps : CoreDeps) (w w' : CoreSession) (reported : Bool) : Prop where
  stage : w'.stage = w.stage
  owns : deps.OwnsLease w'.db → deps.OwnsLease w.db
  attempted : w.attempted = true → w'.attempted = true
  success : reported = true → ¬ deps.OwnsLease w'.db
  failure : reported = false → w'.attempted = true

theorem commitPlayerExit_committed {w w' : CoreSession} {exitKind : PlayerExitKind} {snapshot : PlayerSnapshot}
    {call : CommitCall} {reported : Bool} (h : w.commitPlayerExit deps exitKind snapshot call = (reported, w')) :
    Committed deps w w' reported := by
  have hreported : ∀ {b : Prop}, true = false → b := fun hne => by cases hne
  cases call with
  | refused =>
    cases h
    exact ⟨rfl, id, fun _ => rfl, fun hne => hreported hne.symm, fun _ => rfl⟩
  | lost =>
    cases h
    exact ⟨rfl, id, fun _ => rfl, fun hne => hreported hne.symm, fun _ => rfl⟩
  | replied now fault =>
    simp only [CoreSession.commitPlayerExit] at h
    split at h
    · rename_i db hres
      cases h
      have hok :
        (Db.commitPlayerExit now fault exitKind deps.username deps.connection.serverId deps.connection.connectionId
          snapshot w.db).1 = .ok () := by rw [hres]
      have hgiven := not_ownsSession_exit hok
      rw [hres] at hgiven
      exact ⟨rfl, fun how => absurd how hgiven, id, fun _ => hgiven, fun hne => hreported hne⟩
    · rename_i e db hres
      cases h
      have hback := @commitPlayerExit_owns deps w.db exitKind snapshot now fault
      rw [hres] at hback
      exact ⟨rfl, hback, fun _ => rfl, fun hne => hreported hne.symm, fun _ => rfl⟩

theorem Committed.good {w w' : CoreSession} {reported : Bool} (h : Committed deps w w' reported) (hw : w.Good deps) :
    w'.Good deps := by
  unfold CoreSession.Good
  rw [h.stage]
  exact StageGood.mono hw h.owns h.attempted

/-- A handoff that fails leaves the player where it is; one that succeeds has given the row up. -/
theorem relocate_stays {w t : CoreSession} {route : Except RelocationError Unit}
    {snapshot : Except String PlayerSnapshot} {commit : CommitCall} {sendOk : Bool} (h : w.Good deps)
    (ht : w.relocate deps route snapshot commit sendOk = some t) :
    Stays deps t := by
  have hplain : ∀ {w' : CoreSession}, w'.Good deps → w'.turn deps (PhaseEffects.apply {} sendOk true) = some t →
      Stays deps t := by
    intro w' hw' ht'
    refine turn_stays hw' (apply_good_of_standard ?_) ht'
    rintro e ⟨⟩
  simp only [CoreSession.relocate] at ht
  split at ht
  · split at ht
    · rename_i effects w' hres
      unfold CoreSession.dispatchHandoff at hres
      split at hres
      · cases hres
      · cases hres
      · split at hres
        · rename_i w'' hcommit
          cases hres
          have hc := commitPlayerExit_committed hcommit
          exact turn_stays (hc.good h) (apply_good fun e he _ => hc.success rfl) ht
        · cases hres
    · rename_i e w' hres
      unfold CoreSession.dispatchHandoff at hres
      split at hres
      · cases hres
        exact hplain h ht
      · cases hres
        exact hplain h ht
      · split at hres
        · cases hres
        · rename_i w'' hcommit
          cases hres
          exact hplain ((commitPlayerExit_committed hcommit).good h) ht
  · cases ht

/-- A phase starts its loop or ends; the position that loading sends is there. -/
theorem enter_stays {stage next : CoreStage} {isDraining : Bool} {summaries : Except DbError Unit} {sendOk : Bool}
    (h : StageGood deps db attempted stage) (hnext : stage.enter deps isDraining summaries sendOk = some next) :
    StageGood deps db attempted next ∧ next ≠ .panicked := by
  have hstandard : ∀ {e : PhaseError}, e.isHandoff = false → stage.isDriven = true →
      StageGood deps db attempted (stage.finish deps (.error e)) ∧ stage.finish deps (.error e) ≠ .panicked :=
    fun he hdriven => finish_good hdriven (resultGood_error he)
  have hsent : ∀ stage' : CoreStage, StageGood deps db attempted stage' → stage' ≠ .panicked → stage.isDriven = true →
      some (if sendOk then stage' else stage.finish deps (.error (.other "send"))) = some next →
      StageGood deps db attempted next ∧ next ≠ .panicked := by
    intro stage' hgood halive hdriven heq
    cases heq
    split
    · exact ⟨hgood, halive⟩
    · exact hstandard rfl hdriven
  unfold CoreStage.enter at hnext
  dsimp only at hnext
  split at hnext
  · split at hnext
    · cases hnext
      exact hstandard rfl rfl
    · split at hnext
      · cases hnext
        exact hstandard rfl rfl
      · exact hsent (.select true) trivial CoreStage.noConfusion rfl hnext
  · split at hnext
    · cases hnext
      exact hstandard rfl rfl
    · split at hnext
      · rename_i hnone
        have hsome : (deps.coords.handleEnterPos _ _).isSome := h
        rw [hnone] at hsome
        cases hsome
      · exact hsent (.loading _ true) h CoreStage.noConfusion rfl hnext
  · split at hnext
    · cases hnext
      exact hstandard rfl rfl
    · exact hsent (.inGame _ true) trivial CoreStage.noConfusion rfl hnext
  · cases hnext

theorem prepare_stays {w t : CoreSession} {isDraining enteredMap : Bool}
    (ht : w.prepare deps isDraining enteredMap = some t) :
    Stays deps t := by
  simp only [CoreSession.prepare] at ht
  split at ht
  · split at ht
    · cases ht
      exact ⟨rfl, CoreStage.noConfusion⟩
    · cases ht
      exact ⟨trivial, CoreStage.noConfusion⟩
  · cases ht

/-! ## The steps after the phases -/

theorem leave_stays {w t : CoreSession} {snapshot : Except String PlayerSnapshot} (h : w.Good deps)
    (ht : w.leave deps snapshot = some t) : Stays deps t := by
  unfold CoreSession.Good at h
  simp only [CoreSession.leave] at ht
  split at ht
  · rename_i hstage
    rw [hstage] at h
    cases ht
    exact ⟨h, CoreStage.noConfusion⟩
  · rename_i hstage
    rw [hstage] at h
    exact h.elim
  · rename_i username leaseAction hstage
    rw [hstage] at h
    split at ht
    · cases ht
      exact ⟨trivial, CoreStage.noConfusion⟩
    · cases ht
      refine ⟨?_, CoreStage.noConfusion⟩
      cases leaseAction with
      | release => exact h
      | alreadyReleased => exact h.1
      | retainUntilStale => exact h.1
  · split at ht
    · cases ht
      exact ⟨trivial, CoreStage.noConfusion⟩
    · cases ht
      exact ⟨rfl, CoreStage.noConfusion⟩
  · cases ht

theorem flush_stays {w t : CoreSession} {reported : Bool} (ht : w.flush reported = some t) : Stays deps t := by
  simp only [CoreSession.flush] at ht
  split at ht
  · cases ht
    cases reported with
    | true => exact ⟨trivial, CoreStage.noConfusion⟩
    | false => exact ⟨trivial, CoreStage.noConfusion⟩
  · cases ht

theorem exit_stays {w t : CoreSession} {commit : CommitCall} (ht : w.exit deps commit = some t) : Stays deps t := by
  simp only [CoreSession.exit] at ht
  split at ht
  · split at ht
    · rename_i w' hcommit
      cases ht
      exact ⟨⟨rfl, (commitPlayerExit_committed hcommit).success rfl⟩, CoreStage.noConfusion⟩
    · rename_i w' hcommit
      cases ht
      exact ⟨⟨rfl, (commitPlayerExit_committed hcommit).failure rfl⟩, CoreStage.noConfusion⟩
  · cases ht

theorem close_stays {w t : CoreSession} (h : w.Good deps) (ht : w.close deps = some t) : Stays deps t := by
  unfold CoreSession.Good at h
  simp only [CoreSession.close] at ht
  split at ht
  · rename_i sessionEnd hstage
    rw [hstage] at h
    cases ht
    refine ⟨?_, CoreStage.noConfusion⟩
    cases sessionEnd with
    | beforeLogin => exact h.elim
    | handoff username => exact ⟨h, SessionEnd.noConfusion⟩
    | afterLogin username leaseAction =>
      cases leaseAction with
      | release =>
        cases h
        exact ⟨rfl, fun _ => not_ownsSession_release w.db deps.username deps.connection⟩
      | alreadyReleased => exact ⟨h, fun heq => by cases heq⟩
      | retainUntilStale => exact ⟨h, fun heq => by cases heq⟩
  · cases ht

theorem late_stays {w t : CoreSession} {i : Nat} {now : Int} {fault : Option ExitStage} (h : w.Good deps)
    (halive : w.stage ≠ .panicked) (ht : w.late deps i now fault = some t) : Stays deps t := by
  simp only [CoreSession.late] at ht
  split at ht
  · cases ht
    exact ⟨StageGood.mono h commitPlayerExit_owns id, halive⟩
  · cases ht

/-! ## Loading -/

/-- The spawn that the content's coordinates resolve has a world position for `handle_enter`. -/
theorem resolveSpawnForPlayer_placed (deps : CoreDeps) (runtimeState : Option RuntimeRow) (empire : Empire) :
    ∃ spawn, deps.coords.resolveSpawnForPlayer runtimeState empire = some spawn ∧
      (deps.coords.handleEnterPos spawn.mapId spawn.localPos).isSome := by
  have hinside := ContentCoords.spawnsInside_of_fromCatalog deps.accepted
  obtain ⟨spawn, hspawn, hplaced⟩ :=
    hinside.resolveSpawn (runtimeState.bind ContentCoords.persistedFromRuntimeState) empire
  refine ⟨spawn, hspawn, ?_⟩
  unfold ContentCoords.handleEnterPos
  rw [Option.isSome_map]
  exact hplaced.world

theorem profileEmpire_eq_some {profile : Except DbError (Option ProfileRow)} {empire : Empire} :
    profileEmpire profile = some empire ↔ ∃ row, profile = .ok (some row) ∧ row.empire = some empire := by
  unfold profileEmpire
  split
  · rename_i row
    constructor
    · exact fun h => ⟨row, rfl, h⟩
    · rintro ⟨_, ⟨⟩, h⟩
      exact h
  · exact iff_of_false (fun h => by cases h) (by rintro ⟨_, ⟨⟩, _⟩)
  · exact iff_of_false (fun h => by cases h) (by rintro ⟨_, ⟨⟩, _⟩)

variable [GrowthRng]

/-- `run_loading` ends with a release, goes on with a position that `handle_enter` can send, or panics; the last exactly
where its profile lookup finds no empire or the player's hydration fails an assertion. -/
theorem runLoading_cases (deps : CoreDeps) (isDraining : Bool) (calls : LoadingCalls) :
    ((runLoading deps isDraining calls = .ended (.afterLogin deps.username .release) ∨
      ∃ entry, runLoading deps isDraining calls = .loaded entry ∧
        (deps.coords.handleEnterPos entry.mapId entry.initialPos).isSome) ∧ LoadsSafely deps (.load isDraining calls)) ∨
    (runLoading deps isDraining calls = .panicked ∧ ¬ LoadsSafely deps (.load isDraining calls)) := by
  obtain ⟨player, runtimeState, profile, netId⟩ := calls
  unfold runLoading
  dsimp only
  split
  · rename_i hdrain
    refine .inl ⟨.inl rfl, fun hno => ?_⟩
    rw [hno] at hdrain
    cases hdrain
  rename_i hdrain
  split
  · rename_i player runtimeState
    split
    · rename_i hnone
      refine .inr ⟨rfl, fun hsafe => ?_⟩
      obtain ⟨⟨row, empire, hrow, hempire⟩, _⟩ := hsafe (Bool.not_eq_true _ ▸ hdrain) player runtimeState rfl rfl
      rw [profileEmpire_eq_some.2 ⟨row, hrow, hempire⟩] at hnone
      cases hnone
    · rename_i empire hempire
      obtain ⟨row, hrow, hempire⟩ := profileEmpire_eq_some.1 hempire
      obtain ⟨spawn, hspawn, hpos⟩ := resolveSpawnForPlayer_placed deps runtimeState empire
      rw [hspawn]
      have hsafe : (∀ id, netId = .ok id → deps.playerStats.HydratesSafely (gameplayBootstrapFromRow player)) →
          LoadsSafely deps (.load isDraining ⟨.ok (some player), .ok runtimeState, profile, netId⟩) := by
        rintro hhydrates - _ _ ⟨⟩ ⟨⟩
        exact ⟨⟨row, empire, hrow, hempire⟩, hhydrates⟩
      cases netId with
      | error text => exact .inl ⟨.inl rfl, hsafe fun _ hid => by cases hid⟩
      | ok id =>
        dsimp only
        have hiff := PlayerStatRules.hydratePlayer_ne_none_iff (r := deps.playerStats)
          (b := gameplayBootstrapFromRow player)
        cases hh : deps.playerStats.hydratePlayer (gameplayBootstrapFromRow player) with
        | none =>
          refine .inr ⟨rfl, fun hsafe => ?_⟩
          obtain ⟨_, hhydrates⟩ := hsafe (Bool.not_eq_true _ ▸ hdrain) player runtimeState rfl rfl
          exact hiff.2 (hhydrates id rfl) hh
        | some hydrated =>
          have hhydrates := hiff.1 (by rw [hh]; exact Option.some_ne_none _)
          cases hydrated with
          | none => exact .inl ⟨.inl rfl, hsafe fun _ _ => hhydrates⟩
          | some stats => exact .inl ⟨.inr ⟨_, rfl, hpos⟩, hsafe fun _ _ => hhydrates⟩
  · rename_i hneither
    refine .inl ⟨.inl rfl, ?_⟩
    rintro - player runtimeState hplayer hruntime
    exact (hneither player runtimeState hplayer hruntime).elim

theorem load_good_iff {w t : CoreSession} {isDraining : Bool} {calls : LoadingCalls}
    (ht : w.load deps isDraining calls = some t) :
    t.Good deps ∧ (t.stage ≠ .panicked ↔ LoadsSafely deps (.load isDraining calls)) := by
  simp only [CoreSession.load] at ht
  split at ht
  · rcases runLoading_cases deps isDraining calls with ⟨hend | ⟨entry, hload, hpos⟩, hsafe⟩ | ⟨hpanic, hunsafe⟩
    · rw [hend] at ht
      cases ht
      exact ⟨rfl, iff_of_true CoreStage.noConfusion hsafe⟩
    · rw [hload] at ht
      cases ht
      exact ⟨hpos, iff_of_true CoreStage.noConfusion hsafe⟩
    · rw [hpanic] at ht
      cases ht
      exact ⟨trivial, iff_of_false (fun hne => hne rfl) hunsafe⟩
  · cases ht

/-! ## Runs -/

/-- A step keeps what its stages promise, and panics exactly if it is a loading phase that does not load safely. -/
theorem coreStep_good_iff {s t : CoreSession} {event : CoreEvent} (hs : s.Good deps) (halive : s.stage ≠ .panicked)
    (ht : coreStep deps s event = some t) : t.Good deps ∧ (t.stage ≠ .panicked ↔ LoadsSafely deps event) := by
  have hstays : LoadsSafely deps event → Stays deps t → t.Good deps ∧ (t.stage ≠ .panicked ↔ LoadsSafely deps event) :=
    fun hsafe h => ⟨h.good, iff_of_true h.alive hsafe⟩
  have hended : ∀ {e : PhaseError}, e.isHandoff = false → s.turn deps (some (.error e)) = some t → Stays deps t := by
    intro e he hturn
    refine turn_stays hs ?_ hturn
    rintro r ⟨⟩
    exact resultGood_error he
  cases event with
  | enter isDraining summaries sendOk =>
    obtain ⟨next, hnext, rfl⟩ := Option.map_eq_some_iff.1 ht
    obtain ⟨hgood, hne⟩ : StageGood deps s.db s.attempted next ∧ next ≠ .panicked := enter_stays hs hnext
    exact hstays trivial ⟨hgood, hne⟩
  | drained => exact hstays trivial (hended rfl ht)
  | closed => exact hstays trivial (hended rfl ht)
  | recvFailed text => exact hstays trivial (hended rfl ht)
  | sendFailed => exact hstays trivial (hended rfl ht)
  | tick now call sendOk => exact hstays trivial (handleTick_stays hs ht)
  | control packet now sendOk => exact hstays trivial (handleControl_stays hs ht)
  | packet packet now sendOk phaseOk => exact hstays trivial (handlePacket_stays hs ht)
  | relocate route snapshot commit sendOk => exact hstays trivial (relocate_stays hs ht)
  | load isDraining calls => exact load_good_iff ht
  | prepare isDraining enteredMap => exact hstays trivial (prepare_stays ht)
  | leave snapshot => exact hstays trivial (leave_stays hs ht)
  | flush reported => exact hstays trivial (flush_stays ht)
  | exit commit => exact hstays trivial (exit_stays ht)
  | close => exact hstays trivial (close_stays hs ht)
  | late i now fault => exact hstays trivial (late_stays hs halive ht)
  | other now op =>
    simp only [coreStep] at ht
    split at ht
    · cases ht
    · rename_i hother
      cases ht
      have howns : deps.OwnsLease (op.exec deps.staleThresholdSecs now s.db) → deps.OwnsLease s.db :=
        DbOp.ownsSession_of_exec _ now op fun hgrant => hother (DbOp.grants_connection hgrant)
      exact hstays trivial ⟨StageGood.mono hs howns id, halive⟩

end

/-- Whatever fails, and in whatever order the connection, the worker and everyone else take their turns: a connection
whose login is through resolves its lease throughout the run exactly if every loading phase of the run loads safely. -/
theorem lease_resolved_iff [GrowthRng] {deps : CoreDeps} {tracker : SessionTracker} {handshake : HandshakeState}
    {db : GameDb} {events : List CoreEvent} {w : CoreSession}
    (hrun : run (coreStep deps) (.start tracker handshake db) events = some w) :
    Along (coreStep deps) (Resolved deps) (.start tracker handshake db) events ↔
      Meets (coreStep deps) (fun _ event => LoadsSafely deps event) (.start tracker handshake db) events := by
  refine along_iff_meets (I := CoreSession.Good deps) ?_ ?_ ?_ hrun
  · intro s event t hs hresolved ht
    obtain ⟨hgood, hiff⟩ := coreStep_good_iff hs (hs.resolved_iff.1 hresolved) ht
    exact ⟨hgood, hgood.resolved_iff.trans hiff⟩
  · exact trivial
  · exact trivial

/-! ## A character is selected -/

/-- The core of the red start map, without class tables. -/
def redCore {coords : ContentCoords} (accepted : ContentCoords.fromCatalog startCatalog = .ok coords) : CoreDeps where
  connection := connA
  username := "admin"
  staleThresholdSecs := 60
  mapId := ⟨"metin2_map_a1"⟩
  playerStats := ⟨⟨[]⟩, ⟨.empty⟩⟩
  catalog := startCatalog
  coords
  accepted

/-- The account's row is the connection's. -/
def selectStart : CoreSession :=
  .start (.new 0 10000000000) ⟨⟨1⟩, 0, 0, 0, false⟩
    ⟨fun _ => none, fun _ => none, fun _ => none, fun _ => some ⟨some "core-1", some "a", 0, none, none, none, .active⟩⟩

/-- The selection is shown, a character is chosen and loaded. -/
def chooseAndLoad (profile : Except DbError (Option ProfileRow)) (netId : Except String EntityId) : List CoreEvent :=
  [.enter false (.ok ()) true, .packet (.select (.submitPlayerChoice (.ok (some ⟨1⟩)))) 1000000000 true true,
    .load false ⟨.ok (some ⟨⟨1⟩, .warrior, 1, 0, ⟨0, 0, 0, 0⟩, 0, none, none, none⟩), .ok none, profile, netId⟩]

/-- The map runtime is gone when it is asked for a net id: the loading phase ends and the row is released. -/
theorem lease_resolved_iff_map_down :
    ∃ (coords : ContentCoords) (accepted : ContentCoords.fromCatalog startCatalog = .ok coords) (w : CoreSession),
      run (@coreStep splitMix64Rolls (redCore accepted)) selectStart
        (chooseAndLoad (.ok (some ⟨false, some .red⟩)) (.error "map is gone") ++ [.close]) = some w ∧
      w.stage = .ended (.afterLogin "admin" .release) ∧ ¬ (redCore accepted).OwnsLease w.db ∧
      Along (@coreStep splitMix64Rolls (redCore accepted)) (Resolved (redCore accepted)) selectStart
        (chooseAndLoad (.ok (some ⟨false, some .red⟩)) (.error "map is gone") ++ [.close]) := by
  obtain ⟨coords, accepted, w, hrun, hstage⟩ : ∃ (coords : ContentCoords)
      (accepted : ContentCoords.fromCatalog startCatalog = .ok coords) (w : CoreSession),
      run (@coreStep splitMix64Rolls (redCore accepted)) selectStart
        (chooseAndLoad (.ok (some ⟨false, some .red⟩)) (.error "map is gone") ++ [.close]) = some w ∧
      w.stage = .ended (.afterLogin "admin" .release) := ⟨_, rfl, _, rfl, rfl⟩
  have hmeets : Meets (@coreStep splitMix64Rolls (redCore accepted))
    (fun _ event => @LoadsSafely splitMix64Rolls (redCore accepted) event)
      selectStart (chooseAndLoad (.ok (some ⟨false, some .red⟩)) (.error "map is gone") ++ [.close]) := by
    refine Meets.of_forall fun event hevent => ?_
    simp only [chooseAndLoad, List.cons_append, List.nil_append, List.mem_cons, List.not_mem_nil, or_false] at hevent
    rcases hevent with rfl | rfl | rfl | rfl
    · trivial
    · trivial
    · rintro - _ _ ⟨⟩ ⟨⟩
      exact ⟨⟨_, _, rfl, rfl⟩, fun _ hid => by cases hid⟩
    · trivial
  have halong := (@lease_resolved_iff splitMix64Rolls _ _ _ _ _ _ hrun).2 hmeets
  refine ⟨coords, accepted, w, hrun, hstage, fun how => ?_, halong⟩
  have hend :=
    (run_inv_along (I := fun _ => True) (C := fun _ _ => True) (fun _ _ _ _ _ _ _ _ => trivial) trivial halong
    (.of_forall fun _ _ => trivial) hrun).2
  unfold Resolved at hend
  rw [hstage] at hend
  cases (hend how).1

/-- The profile cannot be read: the loading phase panics, and the row stays the connection's with no commit
attempted. -/
theorem loading_panics_with_lease :
    ∃ (coords : ContentCoords) (accepted : ContentCoords.fromCatalog startCatalog = .ok coords) (w : CoreSession),
      run (@coreStep splitMix64Rolls (redCore accepted)) selectStart
        (chooseAndLoad (.error (.sqlx "find profile by username")) (.ok ⟨1⟩)) = some w ∧
      w.stage = .panicked ∧ (redCore accepted).OwnsLease w.db ∧ w.attempted = false ∧
      ¬ Resolved (redCore accepted) w := by
  refine ⟨_, rfl, _, rfl, rfl, ⟨_, rfl, rfl⟩, rfl, id⟩

end Zohar.Game
