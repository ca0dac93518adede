/-
The tables of the game database that a player's run touches, after the migrations of
zohar-db/src/postgres_backend: `game.players`, `game.player_runtime_state`, `game.player_progression` and
`game.sessions`. A table is a function of its primary key. A timestamp is in microseconds, and a `REAL` is
the bit pattern of its `f32`. The columns that no statement here reads or writes (slot, name, class, gender,
appearance) are left out.
-/
import Zohar.Domain
import Mathlib.Logic.Function.Basic

namespace Zohar.Db

open Zohar.Lib

structure PlayerRow where
  username : String
  deletedAt : Option Int
  deriving DecidableEq, Repr

structure RuntimeRow where
  mapKey : Option String
  localX : Option UInt32
  localY : Option UInt32
  currentHp : Option Int
  currentSp : Option Int
  currentStamina : Option Int
  runtimeEpoch : PlayerRuntimeEpoch
  updatedAt : Int
  deriving DecidableEq, Repr

structure ProgressionRow where
  level : Int
  expInLevel : Int
  allocatedStr : Int
  allocatedVit : Int
  allocatedDex : Int
  allocatedInt : Int
  statResetCount : Int
  playtimeSecs : Int
  deriving DecidableEq, Repr

/-- The table's `CHECK` constraints. The reset count has none. -/
def ProgressionRow.checks (r : ProgressionRow) : Bool :=
  1 ≤ r.level && 0 ≤ r.expInLevel && 0 ≤ r.playtimeSecs && 0 ≤ r.allocatedStr && 0 ≤ r.allocatedVit &&
    0 ≤ r.allocatedDex && 0 ≤ r.allocatedInt

inductive SessionState where
  | authed | active
  deriving DecidableEq, Repr

structure SessionRow where
  serverId : Option String
  connectionId : Option String
  lastHeartbeat : Int
  loginToken : Option Int
  loginIssuedAt : Option Int
  peerIp : Option String
  state : SessionState
  deriving DecidableEq, Repr

structure GameDb where
  players : PlayerId → Option PlayerRow
  runtime : PlayerId → Option RuntimeRow
  progression : PlayerId → Option ProgressionRow
  sessions : String → Option SessionRow

/-- A `DbError` keeps the context of the failed call. -/
inductive DbError where
  | sqlx (context : String)
  | invariant (message : String)
  deriving DecidableEq, Repr

namespace GameDb

def setRuntime (db : GameDb) (id : PlayerId) (r : RuntimeRow) : GameDb :=
  { db with runtime := Function.update db.runtime id (some r) }

def setProgression (db : GameDb) (id : PlayerId) (r : ProgressionRow) : GameDb :=
  { db with progression := Function.update db.progression id (some r) }

def setSession (db : GameDb) (username : String) (r : SessionRow) : GameDb :=
  { db with sessions := Function.update db.sessions username (some r) }

/-- `p.deleted_at IS NULL` for a player that exists. -/
def active (db : GameDb) (id : PlayerId) : Bool :=
  match db.players id with
  | some p => p.deletedAt.isNone
  | none => false

@[simp] theorem setRuntime_players (db : GameDb) (id : PlayerId) (r : RuntimeRow) :
    (db.setRuntime id r).players = db.players := rfl

@[simp] theorem setRuntime_runtime_self (db : GameDb) (id : PlayerId) (r : RuntimeRow) :
    (db.setRuntime id r).runtime id = some r := by simp [setRuntime]

@[simp] theorem setRuntime_runtime_of_ne (db : GameDb) {id id' : PlayerId} (r : RuntimeRow) (h : id' ≠ id) :
    (db.setRuntime id r).runtime id' = db.runtime id' := by simp [setRuntime, h]

@[simp] theorem setRuntime_progression (db : GameDb) (id : PlayerId) (r : RuntimeRow) :
    (db.setRuntime id r).progression = db.progression := rfl

@[simp] theorem setRuntime_sessions (db : GameDb) (id : PlayerId) (r : RuntimeRow) :
    (db.setRuntime id r).sessions = db.sessions := rfl

@[simp] theorem setProgression_players (db : GameDb) (id : PlayerId) (r : ProgressionRow) :
    (db.setProgression id r).players = db.players := rfl

@[simp] theorem setProgression_runtime (db : GameDb) (id : PlayerId) (r : ProgressionRow) :
    (db.setProgression id r).runtime = db.runtime := rfl

@[simp] theorem setProgression_progression_self (db : GameDb) (id : PlayerId) (r : ProgressionRow) :
    (db.setProgression id r).progression id = some r := by simp [setProgression]

@[simp] theorem setProgression_progression_of_ne (db : GameDb) {id id' : PlayerId} (r : ProgressionRow) (h : id' ≠ id) :
    (db.setProgression id r).progression id' = db.progression id' := by simp [setProgression, h]

@[simp] theorem setProgression_sessions (db : GameDb) (id : PlayerId) (r : ProgressionRow) :
    (db.setProgression id r).sessions = db.sessions := rfl

@[simp] theorem setSession_players (db : GameDb) (u : String) (r : SessionRow) :
    (db.setSession u r).players = db.players := rfl

@[simp] theorem setSession_runtime (db : GameDb) (u : String) (r : SessionRow) :
    (db.setSession u r).runtime = db.runtime := rfl

@[simp] theorem setSession_progression (db : GameDb) (u : String) (r : SessionRow) :
    (db.setSession u r).progression = db.progression := rfl

@[simp] theorem setSession_sessions_self (db : GameDb) (u : String) (r : SessionRow) :
    (db.setSession u r).sessions u = some r := by
  simp [setSession]

@[simp] theorem setSession_sessions_of_ne (db : GameDb) {u u' : String} (r : SessionRow) (h : u' ≠ u) :
    (db.setSession u r).sessions u' = db.sessions u' := by simp [setSession, h]

end GameDb

end Zohar.Db
