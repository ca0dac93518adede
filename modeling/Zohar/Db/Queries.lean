/-
The statements of zohar-db/src/postgres_backend/queries.rs on the rows of a player and of a session, each as
one atomic step. `now` is the server's `NOW()` for the statement. A statement that fails, by a constraint or
because the server was not reached, changes nothing and its call returns an error.
-/
import Zohar.Db.Tables

namespace Zohar.Db

open Zohar.Lib

inductive PlayerWriteOutcome where
  | saved | staleOwner
  deriving DecidableEq, Repr

inductive AcquireSessionResult where
  | acquired
  | alreadyOnOtherServer (serverId : String)
  deriving DecidableEq, Repr

/-! ## Player rows -/

/-- The assignments to `player_runtime_state` that a save and an exit share. -/
def RuntimeRow.write (r : RuntimeRow) (now : Int) (s : PlayerRuntimeSnapshot) : RuntimeRow :=
  { r with
    mapKey := some s.mapKey
    localX := some s.localPos.x
    localY := some s.localPos.y
    currentHp := s.currentHp
    currentSp := s.currentSp
    currentStamina := s.currentStamina
    updatedAt := now }

def ProgressionRow.write (r : ProgressionRow) (s : PlayerSnapshot) : ProgressionRow where
  playtimeSecs := max r.playtimeSecs s.runtime.playtime.asSecsI64
  level := s.progression.level
  expInLevel := s.progression.expInLevel
  allocatedStr := s.progression.coreStatAllocations.allocatedStr
  allocatedVit := s.progression.coreStatAllocations.allocatedVit
  allocatedDex := s.progression.coreStatAllocations.allocatedDex
  allocatedInt := s.progression.coreStatAllocations.allocatedInt
  statResetCount := s.progression.statResetCount

/-- The statement of `save_player_snapshot`: the two columns it selects and the rows after it. Only `target`
joins the players, so the rows of a deleted player are updated too. -/
def saveStatement (now : Int) (s : PlayerSnapshot) (db : GameDb) : Except DbError ((Bool × Bool) × GameDb) :=
  let id := s.playerId
  let playerExists := (db.runtime id).isSome && db.active id
  match db.runtime id with
  | some r =>
    if r.runtimeEpoch = s.runtime.runtimeEpoch then
      match db.progression id with
      | some q =>
        if (q.write s).checks then
          .ok ((playerExists, true), (db.setRuntime id (r.write now s.runtime)).setProgression id (q.write s))
        else .error (.sqlx "save player snapshot")
      | none => .ok ((playerExists, false), db.setRuntime id (r.write now s.runtime))
    else .ok ((playerExists, false), db)
  | none => .ok ((playerExists, false), db)

/-- `fault`: the server was not reached. -/
def savePlayerSnapshot (now : Int) (fault : Bool) (s : PlayerSnapshot) (db : GameDb) :
    Except DbError PlayerWriteOutcome × GameDb :=
  if fault then (.error (.sqlx "save player snapshot"), db)
  else
    match saveStatement now s db with
    | .error e => (.error e, db)
    | .ok ((playerExists, updated), db') =>
      if !playerExists then (.error (.invariant "active player should exist when saving player snapshot"), db')
      else if updated then (.ok .saved, db')
      else (.ok .staleOwner, db')

/-- The first statement of an exit: the number of progression rows it updated, and the rows after it. -/
def exitPlayerStatement (now : Int) (s : PlayerSnapshot) (db : GameDb) : Except DbError (Nat × GameDb) :=
  let id := s.playerId
  match db.runtime id with
  | some r =>
    if db.active id ∧ r.runtimeEpoch = s.runtime.runtimeEpoch then
      if r.runtimeEpoch.raw + 1 ≤ i64Max then
        let db' := db.setRuntime id { r.write now s.runtime with runtimeEpoch := ⟨r.runtimeEpoch.raw + 1⟩ }
        match db.progression id with
        | some q =>
          if (q.write s).checks then .ok (1, db'.setProgression id (q.write s))
          else .error (.sqlx "save player runtime state during player exit")
        | none => .ok (0, db')
      else .error (.sqlx "save player runtime state during player exit")
    else .ok (0, db)
  | none => .ok (0, db)

def SessionRow.ownedBy (r : SessionRow) (serverId connectionId : String) : Bool :=
  r.serverId = some serverId && r.connectionId = some connectionId

/-- The update that gives a session up: `release_session` and the second statement of an exit. -/
def releaseStatement (username serverId connectionId : String) (db : GameDb) : Nat × GameDb :=
  match db.sessions username with
  | some r =>
    if r.ownedBy serverId connectionId then
      (1, db.setSession username { r with serverId := none, connectionId := none, state := .authed })
    else (0, db)
  | none => (0, db)

/-- The calls of an exit that can fail to reach the server. -/
inductive ExitStage where
  | begin | player | session | commit
  deriving DecidableEq, Repr

/-- The statements run on the transaction's own copy of the rows. Every return before `commit` drops it. -/
def commitPlayerExit (now : Int) (fault : Option ExitStage) (_exitKind : PlayerExitKind)
    (username serverId connectionId : String) (s : PlayerSnapshot) (db : GameDb) : Except DbError Unit × GameDb :=
  if fault = some .begin then (.error (.sqlx "begin commit player exit"), db)
  else if fault = some .player then (.error (.sqlx "save player runtime state during player exit"), db)
  else
    match exitPlayerStatement now s db with
    | .error e => (.error e, db)
    | .ok (playerRows, tx) =>
      if playerRows ≠ 1 then
        (.error (.invariant
          "active player should exist and own the runtime version when committing player exit"), db)
      else if fault = some .session then (.error (.sqlx "release session during player exit"), db)
      else
        let (sessionRows, tx) := releaseStatement username serverId connectionId tx
        if sessionRows ≠ 1 then
          (.error (.invariant "active session should exist when committing player exit"), db)
        else if fault = some .commit then (.error (.sqlx "commit player exit"), db)
        else (.ok (), tx)

/-- `find_player_runtime_state_by_player_id`, the column the handlers keep. -/
def findRuntimeEpoch (db : GameDb) (id : PlayerId) : Option PlayerRuntimeEpoch :=
  if db.active id then (db.runtime id).map RuntimeRow.runtimeEpoch else none

/-! ## Sessions -/

/-- `last_heartbeat < NOW() - make_interval(secs => threshold)` -/
def SessionRow.staleAt (r : SessionRow) (now thresholdSecs : Int) : Bool :=
  r.lastHeartbeat < now - thresholdSecs * 1000000

/-- `login_issued_at IS NOT NULL AND login_issued_at >= NOW() - make_interval(secs => GREATEST(ttl, 0))` -/
def SessionRow.tokenLive (r : SessionRow) (now idleTtlSecs : Int) : Bool :=
  r.loginIssuedAt.any fun t => now - max idleTtlSecs 0 * 1000000 ≤ t

def acquireRow (now staleThresholdSecs : Int) (serverId connectionId : String) : Option SessionRow → SessionRow
  | none => ⟨some serverId, some connectionId, now, none, none, none, .active⟩
  | some r =>
    if r.state = .authed ∨ r.staleAt now staleThresholdSecs then
      { r with serverId := some serverId, connectionId := some connectionId, lastHeartbeat := now, state := .active }
    else r

def acquireSession (now : Int) (username serverId connectionId : String) (staleThresholdSecs : Int) (db : GameDb) :
    Except DbError AcquireSessionResult × GameDb :=
  let row := acquireRow now staleThresholdSecs serverId connectionId (db.sessions username)
  let db' := db.setSession username row
  match row.connectionId with
  | none => (.error (.sqlx "read connection_id"), db')
  | some c =>
    if c = connectionId then (.ok .acquired, db')
    else
      match row.serverId with
      | none => (.error (.sqlx "read server_id"), db')
      | some s => (.ok (.alreadyOnOtherServer s), db')

def resumeSessionWithToken (now : Int) (username : String) (loginToken : UInt32) (serverId connectionId : String)
    (staleThresholdSecs idleTtlSecs : Int) (peerIp : String) (db : GameDb) : Bool × GameDb :=
  match db.sessions username with
  | some r =>
    if r.loginToken = some (loginToken.toNat : Int) ∧ r.tokenLive now idleTtlSecs ∧
        (r.peerIp = none ∨ r.peerIp = some peerIp) ∧
        (r.state = .authed ∨ r.staleAt now (max staleThresholdSecs 0) ∨ r.ownedBy serverId connectionId) then
      (true, db.setSession username
        { r with
          serverId := some serverId
          connectionId := some connectionId
          lastHeartbeat := now
          state := .active
          loginIssuedAt := some now
          peerIp := some peerIp })
    else (false, db)
  | none => (false, db)

def loginTokenRow (now : Int) (loginToken : UInt32) : Option SessionRow → SessionRow
  | none => ⟨none, none, now, some loginToken.toNat, some now, none, .authed⟩
  | some r =>
    let r' := { r with loginToken := some (loginToken.toNat : Int), loginIssuedAt := some now, peerIp := none }
    if r.state = .active ∧ r.serverId.isSome ∧ r.connectionId.isSome then r'
    else { r' with state := .authed, serverId := none, connectionId := none, lastHeartbeat := now }

def setSessionLoginToken (now : Int) (username : String) (loginToken : UInt32) (db : GameDb) : GameDb :=
  db.setSession username (loginTokenRow now loginToken (db.sessions username))

def validateLoginToken (now : Int) (username : String) (loginToken : UInt32) (idleTtlSecs : Int) (peerIp : String)
    (db : GameDb) : Bool × GameDb :=
  match db.sessions username with
  | some r =>
    if r.loginToken = some (loginToken.toNat : Int) ∧ r.state = .authed ∧ r.tokenLive now idleTtlSecs ∧
        (r.peerIp = none ∨ r.peerIp = some peerIp) then
      (true, db.setSession username { r with loginIssuedAt := some now, peerIp := some peerIp })
    else (false, db)
  | none => (false, db)

def markSessionStale (now : Int) (username serverId connectionId : String) (staleThresholdSecs : Int) (db : GameDb) :
    GameDb :=
  match db.sessions username with
  | some r =>
    if r.ownedBy serverId connectionId then
      db.setSession username
        { r with lastHeartbeat := now - (max staleThresholdSecs 0 + 1) * 1000000, state := .active }
    else db
  | none => db

def releaseSession (username serverId connectionId : String) (db : GameDb) : Bool × GameDb :=
  let (rows, db') := releaseStatement username serverId connectionId db
  (rows > 0, db')

def updateSessionHeartbeat (now : Int) (username : String) (db : GameDb) : GameDb :=
  match db.sessions username with
  | some r => if r.state = .active then db.setSession username { r with lastHeartbeat := now } else db
  | none => db

/-! ## One step of the database -/

/-- A connection of a server. -/
structure Connection where
  serverId : String
  connectionId : String
  deriving DecidableEq, Repr

inductive SessionOp where
  | setSessionLoginToken (username : String) (loginToken : UInt32)
  | acquireSession (username : String) (k : Connection)
  | resumeSessionWithToken (username : String) (loginToken : UInt32) (k : Connection) (idleTtlSecs : Int)
    (peerIp : String)
  | validateLoginToken (username : String) (loginToken : UInt32) (idleTtlSecs : Int) (peerIp : String)
  | markSessionStale (username : String) (k : Connection)
  | releaseSession (username : String) (k : Connection)
  | updateSessionHeartbeat (username : String)
  deriving DecidableEq, Repr

/-- `threshold` is the stale threshold in seconds that the servers share. -/
def SessionOp.exec (threshold now : Int) (db : GameDb) : SessionOp → GameDb
  | .setSessionLoginToken u token => Db.setSessionLoginToken now u token db
  | .acquireSession u k => (Db.acquireSession now u k.serverId k.connectionId threshold db).2
  | .resumeSessionWithToken u token k ttl ip =>
    (Db.resumeSessionWithToken now u token k.serverId k.connectionId threshold ttl ip db).2
  | .validateLoginToken u token ttl ip => (Db.validateLoginToken now u token ttl ip db).2
  | .markSessionStale u k => Db.markSessionStale now u k.serverId k.connectionId threshold db
  | .releaseSession u k => (Db.releaseSession u k.serverId k.connectionId db).2
  | .updateSessionHeartbeat u => Db.updateSessionHeartbeat now u db

inductive DbOp where
  | save (fault : Bool) (s : PlayerSnapshot)
  | commit (fault : Option ExitStage) (exitKind : PlayerExitKind) (username : String) (k : Connection)
    (s : PlayerSnapshot)
  | session (op : SessionOp)

def DbOp.exec (threshold now : Int) (db : GameDb) : DbOp → GameDb
  | .save fault s => (savePlayerSnapshot now fault s db).2
  | .commit fault kind u k s => (commitPlayerExit now fault kind u k.serverId k.connectionId s db).2
  | .session op => op.exec threshold now db

/-- A run: every operation with the clock reading of its statement. -/
def GameDb.exec (threshold : Int) (db : GameDb) (ops : List (Int × DbOp)) : GameDb :=
  ops.foldl (fun db o => o.2.exec threshold o.1 db) db

/-! ## What the statements do -/

/-- A save leaves the rows alone, or finds its own epoch and writes. -/
theorem savePlayerSnapshot_cases (now : Int) (fault : Bool) (s : PlayerSnapshot) (db : GameDb) :
    (savePlayerSnapshot now fault s db).2 = db ∨
      ∃ r, db.runtime s.playerId = some r ∧ r.runtimeEpoch = s.runtime.runtimeEpoch ∧
        ((db.progression s.playerId = none ∧
            (savePlayerSnapshot now fault s db).2 = db.setRuntime s.playerId (r.write now s.runtime)) ∨
          ∃ q, db.progression s.playerId = some q ∧ (q.write s).checks ∧ (savePlayerSnapshot now fault s db).2 =
            (db.setRuntime s.playerId (r.write now s.runtime)).setProgression s.playerId (q.write s)) := by
  have hout : (savePlayerSnapshot now fault s db).2 = db ∨
      ∃ c db', saveStatement now s db = .ok (c, db') ∧ (savePlayerSnapshot now fault s db).2 = db' := by
    unfold savePlayerSnapshot
    split
    · exact .inl rfl
    · split
      · exact .inl rfl
      · rename_i pe up db' h
        refine .inr ⟨(pe, up), db', h, ?_⟩
        split
        · rfl
        · split <;> rfl
  rcases hout with h | ⟨c, db', hst, h⟩
  · exact .inl h
  rw [h]
  unfold saveStatement at hst
  dsimp only at hst
  split at hst
  · rename_i r hr
    split at hst
    · rename_i he
      refine .inr ⟨r, hr, he, ?_⟩
      split at hst
      · rename_i q hq
        split at hst
        · rename_i hc
          cases hst
          exact .inr ⟨q, hq, hc, rfl⟩
        · cases hst
      · rename_i hq
        cases hst
        exact .inl ⟨hq, rfl⟩
    · cases hst
      exact .inl rfl
  · cases hst
    exact .inl rfl

/-- A save is answered `Saved` exactly for an active player that has both rows and this very epoch. -/
theorem savePlayerSnapshot_saved {now : Int} {fault : Bool} {s : PlayerSnapshot} {db : GameDb} :
    (savePlayerSnapshot now fault s db).1 = .ok .saved ↔
      fault = false ∧ db.active s.playerId ∧ ∃ r q, db.runtime s.playerId = some r ∧
        r.runtimeEpoch = s.runtime.runtimeEpoch ∧ db.progression s.playerId = some q ∧ (q.write s).checks := by
  unfold savePlayerSnapshot saveStatement
  dsimp only
  cases fault with
  | true => simp
  | false =>
    cases hr : db.runtime s.playerId with
    | none => simp
    | some r =>
      cases hq : db.progression s.playerId with
      | none =>
        by_cases he : r.runtimeEpoch = s.runtime.runtimeEpoch <;> cases db.active s.playerId <;> simp [he]
      | some q =>
        by_cases he : r.runtimeEpoch = s.runtime.runtimeEpoch <;> cases hc : (q.write s).checks <;>
          cases db.active s.playerId <;> simp [he, hc]

theorem exitPlayerStatement_one {now : Int} {s : PlayerSnapshot} {db tx : GameDb}
    (h : exitPlayerStatement now s db = .ok (1, tx)) :
    db.active s.playerId ∧ ∃ r q, db.runtime s.playerId = some r ∧ r.runtimeEpoch = s.runtime.runtimeEpoch ∧
      db.progression s.playerId = some q ∧
      tx = (db.setRuntime s.playerId { r.write now s.runtime with
        runtimeEpoch := ⟨r.runtimeEpoch.raw + 1⟩ }).setProgression
        s.playerId (q.write s) := by
  unfold exitPlayerStatement at h
  dsimp only at h
  split at h
  · rename_i r hr
    split at h
    · rename_i hc
      split at h
      · split at h
        · rename_i q hq
          split at h
          · cases h
            exact ⟨hc.1, r, q, hr, hc.2, hq, rfl⟩
          · cases h
        · cases h
      · cases h
    · cases h
  · cases h

theorem releaseStatement_one {u sid cid : String} {db tx : GameDb} (h : releaseStatement u sid cid db = (1, tx)) :
    ∃ row, db.sessions u = some row ∧ row.ownedBy sid cid ∧
      tx = db.setSession u { row with serverId := none, connectionId := none, state := .authed } := by
  unfold releaseStatement at h
  split at h
  · rename_i row hrow
    split at h
    · rename_i ho
      cases h
      exact ⟨row, hrow, ho, rfl⟩
    · cases h
  · cases h

/-- An exit fails and is rolled back, or both its statements update one row. -/
theorem commitPlayerExit_cases (now : Int) (fault : Option ExitStage) (kind : PlayerExitKind) (u sid cid : String)
    (s : PlayerSnapshot) (db : GameDb) :
    (∃ e, commitPlayerExit now fault kind u sid cid s db = (.error e, db)) ∨
      ∃ tx tx', exitPlayerStatement now s db = .ok (1, tx) ∧ releaseStatement u sid cid tx = (1, tx') ∧
        commitPlayerExit now fault kind u sid cid s db = (.ok (), tx') := by
  unfold commitPlayerExit
  by_cases h1 : fault = some .begin
  · exact .inl ⟨_, if_pos h1⟩
  rw [if_neg h1]
  by_cases h2 : fault = some .player
  · exact .inl ⟨_, if_pos h2⟩
  rw [if_neg h2]
  cases hp : exitPlayerStatement now s db with
  | error e => exact .inl ⟨e, rfl⟩
  | ok a =>
    obtain ⟨rows, tx⟩ := a
    dsimp only
    by_cases h3 : rows = 1
    · subst h3
      rw [if_neg (by simp)]
      by_cases h4 : fault = some .session
      · exact .inl ⟨_, if_pos h4⟩
      rw [if_neg h4]
      obtain ⟨srows, tx', hs⟩ : ∃ n tx', releaseStatement u sid cid tx = (n, tx') := ⟨_, _, rfl⟩
      rw [hs]
      dsimp only
      by_cases h5 : srows = 1
      · subst h5
        rw [if_neg (by simp)]
        by_cases h6 : fault = some .commit
        · exact .inl ⟨_, if_pos h6⟩
        rw [if_neg h6]
        exact .inr ⟨tx, tx', rfl, hs, rfl⟩
      · exact .inl ⟨_, if_pos h5⟩
    · exact .inl ⟨_, if_pos h3⟩

/-- An exit that fails was rolled back. -/
theorem commitPlayerExit_error {now : Int} {fault : Option ExitStage} {kind : PlayerExitKind} {u sid cid : String}
    {s : PlayerSnapshot} {db : GameDb} {e : DbError}
    (h : (commitPlayerExit now fault kind u sid cid s db).1 = .error e) :
    (commitPlayerExit now fault kind u sid cid s db).2 = db := by
  rcases commitPlayerExit_cases now fault kind u sid cid s db with ⟨e', he⟩ | ⟨tx, tx', _, _, hc⟩
  · rw [he]
  · rw [hc] at h
    cases h

/-- An exit that succeeds finds its own epoch and its own session, advances the one and gives up the other. -/
theorem commitPlayerExit_ok {now : Int} {fault : Option ExitStage} {kind : PlayerExitKind} {u sid cid : String}
    {s : PlayerSnapshot} {db : GameDb} (h : (commitPlayerExit now fault kind u sid cid s db).1 = .ok ()) :
    db.active s.playerId ∧ ∃ r q row, db.runtime s.playerId = some r ∧ r.runtimeEpoch = s.runtime.runtimeEpoch ∧
      db.progression s.playerId = some q ∧ db.sessions u = some row ∧ row.ownedBy sid cid ∧
      (commitPlayerExit now fault kind u sid cid s db).2 =
        (((db.setRuntime s.playerId { r.write now s.runtime with
          runtimeEpoch := ⟨r.runtimeEpoch.raw + 1⟩ }).setProgression
          s.playerId (q.write s)).setSession u
            { row with serverId := none, connectionId := none, state := .authed }) := by
  rcases commitPlayerExit_cases now fault kind u sid cid s db with ⟨e, he⟩ | ⟨tx, tx', hp, hs, hc⟩
  · rw [he] at h
    cases h
  · obtain ⟨ha, r, q, hr, he, hq, rfl⟩ := exitPlayerStatement_one hp
    obtain ⟨row, hrow, ho, rfl⟩ := releaseStatement_one hs
    rw [hc]
    exact ⟨ha, r, q, row, hr, he, hq, hrow, ho, rfl⟩

/-- The session statements write sessions only. -/
theorem SessionOp.exec_players (threshold now : Int) (db : GameDb) (op : SessionOp) :
    (op.exec threshold now db).players = db.players ∧ (op.exec threshold now db).runtime = db.runtime ∧
      (op.exec threshold now db).progression = db.progression := by
  cases op with
  | setSessionLoginToken u token => exact ⟨rfl, rfl, rfl⟩
  | acquireSession u k =>
    unfold SessionOp.exec Db.acquireSession
    dsimp only
    split
    · exact ⟨rfl, rfl, rfl⟩
    · split
      · exact ⟨rfl, rfl, rfl⟩
      · split <;> exact ⟨rfl, rfl, rfl⟩
  | resumeSessionWithToken u token k ttl ip =>
    unfold SessionOp.exec Db.resumeSessionWithToken
    dsimp only
    split
    · split <;> exact ⟨rfl, rfl, rfl⟩
    · exact ⟨rfl, rfl, rfl⟩
  | validateLoginToken u token ttl ip =>
    unfold SessionOp.exec Db.validateLoginToken
    dsimp only
    split
    · split <;> exact ⟨rfl, rfl, rfl⟩
    · exact ⟨rfl, rfl, rfl⟩
  | markSessionStale u k =>
    unfold SessionOp.exec Db.markSessionStale
    dsimp only
    split
    · split <;> exact ⟨rfl, rfl, rfl⟩
    · exact ⟨rfl, rfl, rfl⟩
  | releaseSession u k =>
    unfold SessionOp.exec Db.releaseSession releaseStatement
    dsimp only
    split
    · split <;> exact ⟨rfl, rfl, rfl⟩
    · exact ⟨rfl, rfl, rfl⟩
  | updateSessionHeartbeat u =>
    unfold SessionOp.exec Db.updateSessionHeartbeat
    dsimp only
    split
    · split <;> exact ⟨rfl, rfl, rfl⟩
    · exact ⟨rfl, rfl, rfl⟩

end Zohar.Db
