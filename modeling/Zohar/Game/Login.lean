/-
The login phase of a core, from zohar-gamesrv/src/handlers/login.rs. A token login claims the session row first and
looks at the account afterwards; every failure ends the connection before login, and such an end leaves the row as it
is. So a login that fails after its claim leaves a lease that nobody renews or releases.
-/
import Zohar.Game.Session
import Zohar.Game.Coords
import Zohar.Lib.Run

namespace Zohar.Game

open Zohar.Lib Zohar.Db Zohar.Net

/-! ## Calls to the database -/

/-- Whether a statement ran, and whether its answer came. -/
inductive Delivery where
  | done | lostBefore | lostAfter
  deriving DecidableEq, Repr

/-- A call with the server's clock for its statement. -/
structure DbCall where
  now : Int
  delivery : Delivery
  deriving DecidableEq, Repr

def DbCall.exec {α : Type} (call : DbCall) (context : String) (statement : Int → GameDb → α × GameDb) (db : GameDb) :
    Except DbError α × GameDb :=
  match call.delivery with
  | .done => (.ok (statement call.now db).1, (statement call.now db).2)
  | .lostBefore => (.error (.sqlx context), db)
  | .lostAfter => (.error (.sqlx context), (statement call.now db).2)

/-! ## Token login -/

structure TokenLoginInput where
  username : String
  token : UInt32
  encKey : List.Vector UInt8 16

inductive PersistedCheckMode where
  | claimActive (connection : Connection) (staleThresholdSecs : Int)
  | validateOnly
  deriving DecidableEq, Repr

inductive LoginFailReason where
  | invalidCredentials | alreadyLoggedIn | blockedAccount
  deriving DecidableEq, Repr

inductive AuthDecision where
  | accepted (username : String) (empire : Option Empire)
  | rejected (reason : LoginFailReason)
  deriving DecidableEq, Repr

/-- `verify` is that of the token signer, with its secret and its clock. -/
structure LoginDeps where
  verify : String → List.Vector UInt8 16 → UInt32 → Bool
  peerIp : String
  idleTtlSecs : Int
  mode : PersistedCheckMode

structure ProfileRow where
  isBanned : Bool
  empire : Option Empire
  deriving DecidableEq, Repr

/-- The calls of one token login, in their order, and what the profile lookup answers. -/
structure LoginCalls where
  resume : DbCall
  setToken : DbCall
  resumeAgain : DbCall
  profile : Except DbError ProfileRow

def tryPersistedLogin (deps : LoginDeps) (input : TokenLoginInput) (call : DbCall) (db : GameDb) :
    Except DbError Bool × GameDb :=
  match deps.mode with
  | .claimActive k threshold =>
    call.exec "resume session with token" (fun now => resumeSessionWithToken now input.username input.token k.serverId
      k.connectionId threshold deps.idleTtlSecs deps.peerIp) db
  | .validateOnly =>
    call.exec "validate session login token"
      (fun now => validateLoginToken now input.username input.token deps.idleTtlSecs deps.peerIp) db

def tryTotpBootstrap (deps : LoginDeps) (input : TokenLoginInput) (setToken resume : DbCall) (db : GameDb) :
    Except DbError Bool × GameDb :=
  if !deps.verify input.username input.encKey input.token then (.ok false, db)
  else
    match setToken.exec "set session login token"
      (fun now db => ((), setSessionLoginToken now input.username input.token db)) db with
    | (.error e, db) => (.error e, db)
    | (.ok (), db) => tryPersistedLogin deps input resume db

def authenticateTokenLogin (deps : LoginDeps) (input : TokenLoginInput) (calls : LoginCalls) (db : GameDb) :
    Except DbError AuthDecision × GameDb :=
  let accepted :=
    match tryPersistedLogin deps input calls.resume db with
    | (.ok false, db) => tryTotpBootstrap deps input calls.setToken calls.resumeAgain db
    | answer => answer
  match accepted with
  | (.error e, db) => (.error e, db)
  | (.ok false, db) => (.ok (.rejected .invalidCredentials), db)
  | (.ok true, db) =>
    match calls.profile with
    | .error e => (.error e, db)
    | .ok profile =>
      if profile.isBanned then (.ok (.rejected .blockedAccount), db)
      else (.ok (.accepted input.username profile.empire), db)

/-! ## The phase -/

inductive LoginS2c where
  | control (packet : ControlS2c)
  | setAccountEmpire (empire : Empire)
  | loginResultFail (reason : LoginFailReason)
  deriving DecidableEq, Repr

structure LoginEffects where
  send : List LoginS2c := []
  transition : Option String := none
  disconnect : Option PhaseError := none

/-- The connection in its login phase: `ended` is what the phase came to. -/
structure LoginConn where
  tracker : SessionTracker
  handshake : HandshakeState
  db : GameDb
  ended : Option (Except SessionEnd String)

/-- `now` is read before the wait. `sendOk` and `phaseOk` tell whether the packets of the effects and the phase change
could be sent. -/
inductive LoginEvent where
  | noPeerIp
  | drained
  | closed
  | recvFailed (text : String)
  | tick (now : Instant) (sendOk : Bool)
  | control (packet : ControlC2s) (now : Instant) (sendOk : Bool)
  | tokenLogin (input : TokenLoginInput) (calls : LoginCalls) (now : Instant) (sendOk phaseOk : Bool)

def loginTick (tracker : SessionTracker) (now : Instant) : LoginEffects :=
  match tracker.onTick now with
  | some .sendHeartbeat => { send := [.control .requestHeartbeat] }
  | some .timedOut => { disconnect := some (disconnect "heartbeat timeout") }
  | none => {}

def loginControl (decision : ControlDecision) : LoginEffects :=
  match decision with
  | .handled send => { send := send.map .control }
  | .reject reason => { disconnect := some (disconnect reason) }

def loginDecision (decision : AuthDecision) : LoginEffects :=
  match decision with
  | .accepted username empire => { send := (empire.map .setAccountEmpire).toList, transition := some username }
  | .rejected reason => { send := [.loginResultFail reason], disconnect := some (disconnect "invalid login key") }

/-- `apply_effects` and the phase change: `none` where the loop goes on. -/
def applyLoginEffects (sendOk phaseOk : Bool) (effects : LoginEffects) : Option (Except PhaseError String) :=
  if !sendOk then some (.error (.other "send"))
  else
    match effects.disconnect with
    | some e => some (.error e)
    | none => effects.transition.map fun username => if phaseOk then .ok username else .error (.other "send")

/-- `run_phase` with the end of the login phase. -/
def LoginConn.finish (s : LoginConn) (result : Option (Except PhaseError String)) : LoginConn :=
  { s with ended := result.map fun r => r.mapError (PhaseError.sessionEnd .beforeLogin) }

/-- One turn of the loop, or the end of the phase. -/
def loginStep (deps : LoginDeps) (s : LoginConn) (event : LoginEvent) : Option LoginConn :=
  if s.ended.isSome then none
  else
    match event with
    | .noPeerIp => some { s with ended := some (.error .beforeLogin) }
    | .drained => some (s.finish (some (.error (disconnect "server draining"))))
    | .closed => some (s.finish (some (.error (disconnect "connection closed"))))
    | .recvFailed text => some (s.finish (some (.error (.other text))))
    | .tick now sendOk => some (s.finish (applyLoginEffects sendOk true (loginTick s.tracker now)))
    | .control packet now sendOk =>
      let s := { s with tracker := s.tracker.markRx now }
      match handleSessionControl packet now s.handshake with
      | (.error e, handshake) => some ({ s with handshake }.finish (some (.error e)))
      | (.ok decision, handshake) =>
        some ({ s with handshake }.finish (applyLoginEffects sendOk true (loginControl decision)))
    | .tokenLogin input calls now sendOk phaseOk =>
      let s := { s with tracker := s.tracker.markRx now }
      match authenticateTokenLogin deps input calls s.db with
      | (.error _, db) => some ({ s with db }.finish (some (.error (.other "database"))))
      | (.ok decision, db) => some ({ s with db }.finish (applyLoginEffects sendOk phaseOk (loginDecision decision)))

/-! ## Who holds the row -/

/-- The account's row is `ACTIVE` and the connection's. -/
def HoldsSession (db : GameDb) (u : String) (k : Connection) : Prop := ∃ r, db.sessions u = some r ∧ r.heldBy k

/-- The `WHERE` of `resume_session_with_token`. -/
def Resumable (now : Int) (token : UInt32) (k : Connection) (threshold ttl : Int) (ip : String) (r : SessionRow) :
    Prop :=
  r.loginToken = some (token.toNat : Int) ∧ r.tokenLive now ttl ∧ (r.peerIp = none ∨ r.peerIp = some ip) ∧
    (r.state = .authed ∨ r.staleAt now (max threshold 0) ∨ r.ownedBy k.serverId k.connectionId)

theorem resumeSessionWithToken_eq (now : Int) (u : String) (token : UInt32) (k : Connection) (threshold ttl : Int)
    (ip : String) (db : GameDb) :
    (∃ r, db.sessions u = some r ∧ Resumable now token k threshold ttl ip r ∧
      ∃ r' : SessionRow, r'.heldBy k ∧
        resumeSessionWithToken now u token k.serverId k.connectionId threshold ttl ip db = (true, db.setSession u r')) ∨
    ((∀ r, db.sessions u = some r → ¬ Resumable now token k threshold ttl ip r) ∧
      resumeSessionWithToken now u token k.serverId k.connectionId threshold ttl ip db = (false, db)) := by
  unfold resumeSessionWithToken
  cases hrow : db.sessions u with
  | none => exact .inr ⟨by simp, rfl⟩
  | some r =>
    by_cases h : Resumable now token k threshold ttl ip r
    · refine .inl ⟨r, rfl, h, _, ?_, if_pos h⟩
      exact ⟨rfl, rfl, rfl⟩
    · refine .inr ⟨?_, if_neg h⟩
      rintro _ ⟨⟩
      exact h

theorem holdsSession_setSession {db : GameDb} {u u' : String} {k : Connection} {r : SessionRow} :
    HoldsSession (db.setSession u' r) u k ↔ (u = u' ∧ r.heldBy k) ∨ (u ≠ u' ∧ HoldsSession db u k) := by
  unfold HoldsSession
  by_cases hu : u = u'
  · subst hu
    simp
  · simp [hu]

/-- A new token leaves the owner of a row alone. -/
theorem loginTokenRow_heldBy {now : Int} {token : UInt32} {o : Option SessionRow} {k : Connection} :
    (loginTokenRow now token o).heldBy k ↔ ∃ r, o = some r ∧ r.heldBy k := by
  cases o with
  | none => simp [loginTokenRow, SessionRow.heldBy]
  | some r =>
    simp only [loginTokenRow, Option.some.injEq, exists_eq_left']
    split
    · exact Iff.rfl
    · rename_i h
      simp only [SessionRow.heldBy, reduceCtorEq, false_and, false_iff]
      rintro ⟨hst, hs, hc⟩
      exact h ⟨hst, by rw [hs]; rfl, by rw [hc]; rfl⟩

/-- A call that claims the row: its statement runs on a row that it may take. -/
def DbCall.Claims (call : DbCall) (deps : LoginDeps) (input : TokenLoginInput) (k : Connection) (threshold : Int)
    (o : Option SessionRow) : Prop :=
  call.delivery ≠ .lostBefore ∧ ∃ r, o = some r ∧ Resumable call.now input.token k threshold
    deps.idleTtlSecs deps.peerIp r

/-- A token login claims the row at once, or after it has stored a token that the signer vouches for. -/
def LoginClaims (deps : LoginDeps) (k : Connection) (threshold : Int) (input : TokenLoginInput) (calls : LoginCalls)
    (o : Option SessionRow) : Prop :=
  calls.resume.Claims deps input k threshold o ∨
    (calls.resume.delivery = .done ∧ deps.verify input.username input.encKey input.token = true ∧
      calls.setToken.delivery = .done ∧
      calls.resumeAgain.Claims deps input k threshold (some (loginTokenRow calls.setToken.now input.token o)))

section
variable {deps : LoginDeps} {k : Connection} {threshold : Int} (input : TokenLoginInput)

/-- What one attempt to resume does. -/
theorem tryPersistedLogin_spec (hmode : deps.mode = .claimActive k threshold) (call : DbCall) (db : GameDb) :
    (∀ u, HoldsSession (tryPersistedLogin deps input call db).2 u k ↔
      HoldsSession db u k ∨ (u = input.username ∧ call.Claims deps input k threshold (db.sessions input.username))) ∧
    ((tryPersistedLogin deps input call db).1 = .ok false →
      (tryPersistedLogin deps input call db).2 = db ∧ call.delivery = .done) ∧
    ((tryPersistedLogin deps input call db).1 ≠ .ok false →
      call.Claims deps input k threshold (db.sessions input.username) ∨ call.delivery ≠ .done) := by
  unfold tryPersistedLogin DbCall.exec DbCall.Claims
  rw [hmode]
  rcases resumeSessionWithToken_eq call.now input.username input.token k threshold deps.idleTtlSecs deps.peerIp db with
    ⟨r, hr, hres, r', hheld, heq⟩ | ⟨hno, heq⟩
  · have htaken : ∀ u, HoldsSession (db.setSession input.username r') u k ↔ HoldsSession db u k ∨
        u = input.username := by
      intro u
      rw [holdsSession_setSession]
      by_cases hu : u = input.username
      · simp [hu, hheld]
      · simp [hu]
    cases hd : call.delivery with
    | done => simp [heq, htaken, hr, hres]
    | lostBefore => simp
    | lostAfter => simp [heq, htaken, hr, hres]
  · have hnone : ¬ ∃ r, db.sessions input.username = some r ∧
        Resumable call.now input.token k threshold deps.idleTtlSecs deps.peerIp r := by
      rintro ⟨r, hr, hres⟩
      exact hno r hr hres
    cases hd : call.delivery with
    | done => simp [heq, hnone]
    | lostBefore => simp
    | lostAfter => simp [heq, hnone]

theorem tryTotpBootstrap_holds (hmode : deps.mode = .claimActive k threshold) (setToken resume : DbCall) (db : GameDb)
    (u : String) :
    HoldsSession (tryTotpBootstrap deps input setToken resume db).2 u k ↔
      HoldsSession db u k ∨ (u = input.username ∧ deps.verify input.username input.encKey input.token = true ∧
        setToken.delivery = .done ∧ resume.Claims deps input k threshold
          (some (loginTokenRow setToken.now input.token (db.sessions input.username)))) := by
  -- storing the token changes no owner
  have htoken : HoldsSession (setSessionLoginToken setToken.now input.username input.token db) u k ↔
      HoldsSession db u k := by
    unfold setSessionLoginToken
    rw [holdsSession_setSession, loginTokenRow_heldBy]
    by_cases hu : u = input.username
    · simp [hu, HoldsSession]
    · simp [hu]
  unfold tryTotpBootstrap
  by_cases hv : deps.verify input.username input.encKey input.token = true
  · rw [hv, Bool.not_true, if_neg Bool.false_ne_true]
    unfold DbCall.exec
    cases hd : setToken.delivery with
    | lostBefore => simp
    | lostAfter => simp [htoken]
    | done =>
      have hspec := (tryPersistedLogin_spec input hmode resume
        (setSessionLoginToken setToken.now input.username input.token db)).1 u
      have hrow : (setSessionLoginToken setToken.now input.username input.token db).sessions input.username =
          some (loginTokenRow setToken.now input.token (db.sessions input.username)) :=
            GameDb.setSession_sessions_self _ _ _
      rw [htoken, hrow] at hspec
      simp [hspec]
  · rw [Bool.not_eq_true] at hv
    simp [hv]

/-- The answer of a token login comes from its claim; all that follows leaves the database alone. -/
theorem authenticateTokenLogin_db (calls : LoginCalls) (db : GameDb) :
    (authenticateTokenLogin deps input calls db).2 =
      (match tryPersistedLogin deps input calls.resume db with
        | (.ok false, db) => tryTotpBootstrap deps input calls.setToken calls.resumeAgain db
        | answer => answer).2 := by
  unfold authenticateTokenLogin
  dsimp only
  split
  · rename_i heq; rw [heq]
  · rename_i heq; rw [heq]
  · rename_i heq
    rw [heq]
    split
    · rfl
    · split <;> rfl

/-- After a token login the connection holds the row if it did before, or if the login has claimed it: nothing that
comes after the claim gives it back. -/
theorem authenticateTokenLogin_holds (hmode : deps.mode = .claimActive k threshold) (calls : LoginCalls) (db : GameDb)
    (u : String) :
    HoldsSession (authenticateTokenLogin deps input calls db).2 u k ↔ HoldsSession db u k ∨
      (u = input.username ∧ LoginClaims deps k threshold input calls (db.sessions input.username)) := by
  obtain ⟨hheld, hfalse, htrue⟩ := tryPersistedLogin_spec input hmode calls.resume db
  have hboot := tryTotpBootstrap_holds input hmode calls.setToken calls.resumeAgain db u
  rw [authenticateTokenLogin_db]
  unfold LoginClaims
  by_cases hans : (tryPersistedLogin deps input calls.resume db).1 = .ok false
  · obtain ⟨hsame, hdone⟩ := hfalse hans
    have hpair : tryPersistedLogin deps input calls.resume db = (.ok false, db) := Prod.ext hans hsame
    have hheld := hheld u
    rw [hpair] at hheld ⊢
    rw [hboot, hdone]
    -- the first attempt left the row as it was, so its claim adds nothing
    constructor
    · rintro (h | ⟨hu, hrest⟩)
      · exact .inl h
      · exact .inr ⟨hu, .inr ⟨rfl, hrest⟩⟩
    · rintro (h | ⟨hu, hclaim | ⟨_, hrest⟩⟩)
      · exact .inl h
      · exact .inl (hheld.2 (.inr ⟨hu, hclaim⟩))
      · exact .inr ⟨hu, hrest⟩
  · have hkeep : (match tryPersistedLogin deps input calls.resume db with
        | (.ok false, db) => tryTotpBootstrap deps input calls.setToken calls.resumeAgain db
        | answer => answer) = tryPersistedLogin deps input calls.resume db := by
      split
      · rename_i heq; exact absurd (by rw [heq]) hans
      · rfl
    rw [hkeep, hheld u]
    constructor
    · rintro (h | ⟨hu, hclaim⟩)
      · exact .inl h
      · exact .inr ⟨hu, .inl hclaim⟩
    · rintro (h | ⟨hu, hclaim | ⟨hdone, _⟩⟩)
      · exact .inl h
      · exact .inr ⟨hu, hclaim⟩
      · rcases htrue hans with hclaim | hlost
        · exact .inr ⟨hu, hclaim⟩
        · exact absurd hdone hlost

theorem tryPersistedLogin_execBy (hmode : deps.mode = .claimActive k threshold ∨ deps.mode = .validateOnly)
    (call : DbCall) (db : GameDb) : ExecBy threshold k db (tryPersistedLogin deps input call db).2 := by
  -- a statement that ran is one operation, whether or not its answer came
  have hran : ∀ op : SessionOp, (DbOp.session op).isHeartbeat = false →
      (∀ k', (DbOp.session op).connection = some k' → k' = k) → ExecBy threshold k db (op.exec threshold call.now db) :=
    fun op hop hk => .one (.none db) call.now (.session op) hop hk
  unfold tryPersistedLogin DbCall.exec
  rcases hmode with hmode | hmode
  · rw [hmode]
    have hresume := hran (.resumeSessionWithToken input.username input.token k deps.idleTtlSecs deps.peerIp) rfl
      (by simp [DbOp.connection])
    cases call.delivery with
    | lostBefore => exact .none db
    | done => exact hresume
    | lostAfter => exact hresume
  · rw [hmode]
    have hvalidate := hran (.validateLoginToken input.username input.token deps.idleTtlSecs deps.peerIp) rfl
      (by simp [DbOp.connection])
    cases call.delivery with
    | lostBefore => exact .none db
    | done => exact hvalidate
    | lostAfter => exact hvalidate

theorem tryTotpBootstrap_execBy (hmode : deps.mode = .claimActive k threshold ∨ deps.mode = .validateOnly)
    (setToken resume : DbCall) (db : GameDb) :
    ExecBy threshold k db (tryTotpBootstrap deps input setToken resume db).2 := by
  have htoken : ExecBy threshold k db (setSessionLoginToken setToken.now input.username input.token db) :=
    .one (.none db) setToken.now (.session (.setSessionLoginToken input.username input.token)) rfl
      (by simp [DbOp.connection])
  unfold tryTotpBootstrap DbCall.exec
  split
  · exact .none db
  · cases setToken.delivery with
    | lostBefore => exact .none db
    | done => exact htoken.trans (tryPersistedLogin_execBy input hmode resume _)
    | lostAfter => exact htoken

/-- A token login runs statements of its own connection on the database, and no heartbeat. -/
theorem authenticateTokenLogin_execBy (hmode : deps.mode = .claimActive k threshold ∨ deps.mode = .validateOnly)
    (calls : LoginCalls) (db : GameDb) : ExecBy threshold k db (authenticateTokenLogin deps input calls db).2 := by
  have hresume := tryPersistedLogin_execBy input hmode calls.resume db
  rw [authenticateTokenLogin_db]
  split
  · rename_i heq
    rw [heq] at hresume
    exact hresume.trans (tryTotpBootstrap_execBy input hmode calls.setToken calls.resumeAgain _)
  · exact hresume

end

/-! ## Runs -/

/-- A turn ends the phase or leaves the database alone; a token login always ends it. -/
theorem loginStep_cases {deps : LoginDeps} {s s' : LoginConn} {event : LoginEvent}
    (h : loginStep deps s event = some s') :
    s.ended = none ∧
    ((s'.db = s.db ∧ ∀ input calls now sendOk phaseOk, event ≠ .tokenLogin input calls now sendOk phaseOk) ∨
      ∃ input calls now sendOk phaseOk, event = .tokenLogin input calls now sendOk phaseOk ∧ s'.ended ≠ none ∧
        s'.db = (authenticateTokenLogin deps input calls s.db).2) := by
  unfold loginStep at h
  split at h
  · cases h
  rename_i hopen
  refine ⟨by simpa using hopen, ?_⟩
  cases event with
  | noPeerIp => cases h; exact .inl ⟨rfl, by simp⟩
  | drained => cases h; exact .inl ⟨rfl, by simp⟩
  | closed => cases h; exact .inl ⟨rfl, by simp⟩
  | recvFailed text => cases h; exact .inl ⟨rfl, by simp⟩
  | tick now sendOk => cases h; exact .inl ⟨rfl, by simp⟩
  | control packet now sendOk =>
    dsimp only at h
    split at h
    · cases h; exact .inl ⟨rfl, by simp⟩
    · cases h; exact .inl ⟨rfl, by simp⟩
  | tokenLogin input calls now sendOk phaseOk =>
    right
    refine ⟨input, calls, now, sendOk, phaseOk, rfl, ?_⟩
    dsimp only at h
    split at h
    · rename_i heq
      cases h
      exact ⟨by simp [LoginConn.finish], by rw [heq]; rfl⟩
    · rename_i decision db heq
      cases h
      refine ⟨?_, by rw [heq]; rfl⟩
      cases decision <;> cases sendOk <;> simp [LoginConn.finish, applyLoginEffects, loginDecision]

/-- For every state of the session rows and every run of the login phase that ends before login: when the connection
handler returns, the account's row is not left to the connection exactly when it was not the connection's before and the
token login, if there was one, had no row to claim. -/
theorem login_leaves_no_lease_iff {deps : LoginDeps} {k : Connection} {threshold : Int} {s₀ s : LoginConn}
    {events : List LoginEvent} (hmode : deps.mode = .claimActive k threshold)
    (hrun : run (loginStep deps) s₀ events = some s) (hopen : s₀.ended = none)
    (hend : s.ended = some (.error .beforeLogin)) (fault : Bool) (u : String) :
    ¬ HoldsSession (endSession k fault s.db .beforeLogin) u k ↔
      ¬ HoldsSession s₀.db u k ∧
        ∀ input calls now sendOk phaseOk, events.getLast? = some (.tokenLogin input calls now sendOk phaseOk) →
          input.username = u → ¬ LoginClaims deps k threshold input calls (s₀.db.sessions u) := by
  show ¬ HoldsSession s.db u k ↔ _
  rcases List.eq_nil_or_concat events with rfl | ⟨pre, last, rfl⟩
  · cases hrun
    rw [hopen] at hend
    cases hend
  rw [List.concat_eq_append] at hrun ⊢
  obtain ⟨t, hpre, hlast⟩ := (run_append_eq_some _).1 hrun
  obtain ⟨t', hstep, hnil⟩ := (run_cons_eq_some _).1 hlast
  cases hnil
  -- a run whose phase is still open has not reached a token login
  have hdb : t.ended = none → t.db = s₀.db := by
    refine run_inv (I := fun c => c.ended = none → c.db = s₀.db) (fun a e b ha hab => ?_) (fun _ => rfl) hpre
    intro hb
    obtain ⟨ha', h | ⟨_, _, _, _, _, _, hne, _⟩⟩ := loginStep_cases hab
    · exact h.1.trans (ha ha')
    · exact absurd hb hne
  obtain ⟨hstill, h | ⟨input, calls, now, sendOk, phaseOk, rfl, _, hafter⟩⟩ := loginStep_cases hstep
  · rw [h.1, hdb hstill]
    refine ⟨fun hn => ⟨hn, ?_⟩, fun hn => hn.1⟩
    rintro input calls now sendOk phaseOk hev
    rw [List.getLast?_concat] at hev
    exact absurd (Option.some.inj hev) (h.2 input calls now sendOk phaseOk)
  · rw [hafter, authenticateTokenLogin_holds input hmode, hdb hstill, not_or]
    apply and_congr_right'
    constructor
    · rintro hno input' calls' now' sendOk' phaseOk' hev hu
      rw [List.getLast?_concat] at hev
      cases Option.some.inj hev
      subst hu
      exact fun hc => hno ⟨rfl, hc⟩
    · rintro hno ⟨hu, hc⟩
      rw [hu] at hno
      exact hno input calls now sendOk phaseOk (List.getLast?_concat ..) rfl hc

/-- A core that asks about the token 7 of an account that is logged in nowhere. -/
def coreDeps : LoginDeps := ⟨fun _ _ _ => false, "10.0.0.1", 3600, .claimActive ⟨"core-1", "a"⟩ 60⟩

def loginStart : LoginConn where
  tracker := .new 0 10000000000
  handshake := .withSeed 0 0 7
  db := ⟨fun _ => none, fun _ => none, fun _ => none, fun _ => some ⟨none, none, 0, some 7, some 0, none, .authed⟩⟩
  ended := none

/-- The key material of a client that sends none of its own. -/
def zeroKey : List.Vector UInt8 16 := ⟨List.replicate 16 0, rfl⟩

/-- A token login whose calls all get through, for an account that is banned or not. -/
def loginWith (token : UInt32) (isBanned sendOk phaseOk : Bool) : LoginEvent :=
  .tokenLogin ⟨"admin", token, zeroKey⟩ ⟨⟨1, .done⟩, ⟨2, .done⟩, ⟨3, .done⟩, .ok ⟨isBanned, some .red⟩⟩ 5
    sendOk phaseOk

theorem login_leaves_no_lease_iff_wrong_token :
    ∃ s, run (loginStep coreDeps) loginStart [loginWith 8 false true true] = some s ∧
    s.ended = some (.error .beforeLogin) ∧ ¬ HoldsSession (endSession ⟨"core-1", "a"⟩ false s.db .beforeLogin) "admin"
      ⟨"core-1", "a"⟩ := by
  obtain ⟨s, hrun, hend⟩ : ∃ s, run (loginStep coreDeps) loginStart [loginWith 8 false true true] = some s ∧
      s.ended = some (.error .beforeLogin) := ⟨_, rfl, rfl⟩
  refine ⟨s, hrun, hend, (login_leaves_no_lease_iff (k := ⟨"core-1", "a"⟩) rfl hrun rfl hend false "admin").2 ⟨?_, ?_⟩⟩
  · rintro ⟨r, hr, hheld⟩
    cases hr
    exact absurd hheld.1 (by decide)
  · rintro input calls now sendOk phaseOk hev _
    cases hev
    rintro (⟨_, r, hr, hres⟩ | ⟨_, hv, _⟩)
    · cases hr
      exact absurd hres.1 (by decide)
    · cases hv

/-- A banned account, and a client that is gone before the phase change: both logins end before login, and the row stays
`ACTIVE` and the connection's. -/
theorem failed_login_keeps_lease :
    (∃ s, run (loginStep coreDeps) loginStart [loginWith 7 true true true] = some s ∧
      s.ended = some (.error .beforeLogin) ∧
      HoldsSession (endSession ⟨"core-1", "a"⟩ false s.db .beforeLogin) "admin" ⟨"core-1", "a"⟩) ∧
    (∃ s, run (loginStep coreDeps) loginStart [loginWith 7 false true false] = some s ∧
      s.ended = some (.error .beforeLogin) ∧
      HoldsSession (endSession ⟨"core-1", "a"⟩ false s.db .beforeLogin) "admin" ⟨"core-1", "a"⟩) :=
  ⟨⟨_, rfl, rfl, _, rfl, rfl, rfl, rfl⟩, ⟨_, rfl, rfl, _, rfl, rfl, rfl, rfl⟩⟩

end Zohar.Game
