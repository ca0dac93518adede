/-
What all phases of a game connection share: the tracker that decides on every heartbeat tick, the control packets, the
ways a phase can end, and what the connection handler does with the session lease when it has. From zohar-gamesrv:
handlers.rs and handlers/session_health.rs, control.rs, runtime.rs and types.rs.
-/
import Zohar.Db.Lease
import Zohar.Net.Handshake

namespace Zohar.Game

open Zohar.Lib Zohar.Db Zohar.Net

/-! ## Heartbeats -/

inductive SessionTick where
  | sendHeartbeat | timedOut
  deriving DecidableEq, Repr

structure SessionTracker where
  lastRx : Instant
  heartbeatInterval : Duration
  timeout : Duration
  deriving DecidableEq, Repr

namespace SessionTracker

def heartbeatTimeoutMultiplier : Nat := 3

/-- `Duration::MAX`, in nanoseconds. -/
def durationMax : Nat := 18446744073709551615 * 1000000000 + 999999999

/-- A timeout that is no `Duration` any more becomes the longest one of whole seconds. -/
def new (now : Instant) (heartbeatInterval : Duration) : SessionTracker where
  lastRx := now
  heartbeatInterval
  timeout :=
    if heartbeatInterval * heartbeatTimeoutMultiplier ≤ durationMax then heartbeatInterval * heartbeatTimeoutMultiplier
    else 18446744073709551615 * 1000000000

def markRx (s : SessionTracker) (now : Instant) : SessionTracker := { s with lastRx := now }

def onTick (s : SessionTracker) (now : Instant) : Option SessionTick :=
  let sinceRx := now.durationSince s.lastRx
  if s.timeout ≤ sinceRx then some .timedOut
  else if s.heartbeatInterval ≤ sinceRx then some .sendHeartbeat
  else none

end SessionTracker

/-! ## Ends -/

inductive SessionLeaseAction where
  | release | alreadyReleased | retainUntilStale
  deriving DecidableEq, Repr

inductive SessionEnd where
  | beforeLogin
  | afterLogin (username : String) (leaseAction : SessionLeaseAction)
  | handoff (username : String)
  deriving DecidableEq, Repr

inductive DisconnectDisposition where
  | standard | handoffPrepared
  deriving DecidableEq, Repr

/-- An `anyhow::Error` of a phase: a `Disconnect`, or any other. -/
inductive PhaseError where
  | disconnect (reason : String) (disposition : DisconnectDisposition)
  | other (text : String)
  deriving DecidableEq, Repr

def disconnect (reason : String) : PhaseError := .disconnect reason .standard

def sessionEndForDisconnect (sessionEnd : SessionEnd) : DisconnectDisposition → SessionEnd
  | .standard => sessionEnd
  | .handoffPrepared =>
    match sessionEnd with
    | .afterLogin username _ => .handoff username
    | other => other

/-- The end that `run_phase` makes of an error. -/
def PhaseError.sessionEnd (sessionEnd : SessionEnd) : PhaseError → SessionEnd
  | .disconnect _ disposition => sessionEndForDisconnect sessionEnd disposition
  | .other _ => sessionEnd

/-- The end of `handle_conn_core`: only a lease that is to be released is, and a release that fails is let go. -/
def endSession (k : Connection) (fault : Bool) (db : GameDb) : SessionEnd → GameDb
  | .afterLogin username .release => if fault then db else (releaseSession username k.serverId k.connectionId db).2
  | .afterLogin _ .alreadyReleased => db
  | .afterLogin _ .retainUntilStale => db
  | .handoff _ => db
  | .beforeLogin => db

/-- What a phase makes of a packet: it goes on, or the next phase begins, or the client is disconnected. -/
inductive PacketOutcome where
  | handled | next | disconnect
  deriving DecidableEq, Repr

/-! ## Control packets -/

inductive ControlS2c where
  | requestHeartbeat
  | requestHandshake (data : HandshakeSyncData)
  | timeSyncResponse
  deriving DecidableEq, Repr

inductive ControlDecision where
  | handled (send : List ControlS2c)
  | reject (reason : String)
  deriving DecidableEq, Repr

def handleSessionControl (control : ControlC2s) (now : Instant) (handshake : HandshakeState) :
    Except PhaseError ControlDecision × HandshakeState :=
  match control with
  | .heartbeatResponse => (.ok (.handled []), handshake)
  | .requestTimeSync data =>
    match handshake.handle data now with
    | (.error e, handshake) => (.error (.other e.text), handshake)
    | (.ok .sendTimeSyncAck, handshake) => (.ok (.handled [.timeSyncResponse]), handshake)
    | (.ok (.sendHandshakeSync data), handshake) => (.ok (.handled [.requestHandshake data]), handshake)
    | (.ok .completedInitial, handshake) => (.ok (.handled []), handshake)
  | .handshakeResponse _ => (.ok (.reject "SyncReply is only valid during handshake"), handshake)

end Zohar.Game
