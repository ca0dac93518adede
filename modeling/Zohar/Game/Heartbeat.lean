/-
Heartbeat ticks of the connections that share an account, from `handle_tick` of handlers/select.rs and loading.rs and
`handle_session_tick` of handlers/ingame.rs in zohar-gamesrv. A tick that finds its client silent refreshes the
account's `ACTIVE` row, and the statement does not ask whose row it is: a connection that has lost its lease keeps the
new owner's alive.
-/
import Zohar.Game.Login

namespace Zohar.Game

open Zohar.Lib Zohar.Db Zohar.Net

/-! ## Ticks after login -/

inductive TickPacket where
  | control (packet : ControlS2c)
  | setServerTime (time : WireMillis32)
  deriving DecidableEq, Repr

/-- What the ticks of the phases share: what the client is sent, or the disconnect. An error of the call is let go. -/
def sessionTick (session : SessionTracker) (username : String) (more : List TickPacket) (now : Instant) (call : DbCall)
    (db : GameDb) :
    Except PhaseError (List TickPacket) × GameDb :=
  match session.onTick now with
  | some .sendHeartbeat =>
    (.ok (.control .requestHeartbeat :: more),
      (call.exec "update heartbeat" (fun now db => ((), updateSessionHeartbeat now username db)) db).2)
  | some .timedOut => (.error (disconnect "heartbeat timeout"), db)
  | none => (.ok [], db)

/-- The tick of select and loading. -/
def handleTick (session : SessionTracker) (username : String) (now : Instant) (call : DbCall) (db : GameDb) :
    Except PhaseError (List TickPacket) × GameDb :=
  sessionTick session username [] now call db

/-- The tick in game, which sends the time of the server besides. -/
def handleSessionTick (session : SessionTracker) (handshake : HandshakeState) (username : String) (now : Instant)
    (call : DbCall) (db : GameDb) : Except PhaseError (List TickPacket) × GameDb :=
  sessionTick session username [.setServerTime (.fromDuration (handshake.uptimeAt now))] now call db

/-! ## The connections of all servers -/

/-- `username` is set by the login. -/
structure Client where
  session : SessionTracker
  username : Option String
  deriving DecidableEq, Repr

structure Clients where
  db : GameDb
  conns : Connection → Option Client

/-- A server's part in a token login. -/
structure LoginSite where
  verify : String → List.Vector UInt8 16 → UInt32 → Bool
  peerIp : String
  idleTtlSecs : Int
  /-- A core claims the session, a gateway only looks at the token. -/
  core : Bool

def LoginSite.deps (site : LoginSite) (k : Connection) (threshold : Int) : LoginDeps :=
  ⟨site.verify, site.peerIp, site.idleTtlSecs, if site.core then .claimActive k threshold else .validateOnly⟩

theorem LoginSite.deps_mode (site : LoginSite) (k : Connection) (threshold : Int) :
    (site.deps k threshold).mode = .claimActive k threshold ∨ (site.deps k threshold).mode = .validateOnly := by
  unfold LoginSite.deps
  cases site.core with
  | true => exact .inl rfl
  | false => exact .inr rfl

/-- `close` is any other end of a connection, that of its server included. What a connection, the persistence worker or
the login server does to the rows besides logins and ticks is a `db` event. -/
inductive ClientEvent where
  | accept (k : Connection) (now : Instant) (heartbeatInterval : Duration)
  | login (k : Connection) (site : LoginSite) (input : TokenLoginInput) (calls : LoginCalls) (now : Instant)
  | packet (k : Connection) (now : Instant)
  | tick (k : Connection) (now : Instant) (call : DbCall)
  | close (k : Connection)
  | db (now : Int) (op : DbOp)

def ClientEvent.connection : ClientEvent → Option Connection
  | .accept k _ _ => some k
  | .login k _ _ _ _ => some k
  | .packet k _ => some k
  | .tick k _ _ => some k
  | .close k => some k
  | .db _ op => op.connection

def clientTick (w : Clients) (k : Connection) (c : Client) (now : Instant) (call : DbCall) : Clients :=
  match c.username with
  | none =>
    -- the login phase has no row to refresh
    match c.session.onTick now with
    | some .timedOut => { w with conns := Function.update w.conns k none }
    | _ => w
  | some username =>
    -- what is sent, in which the phases differ, leaves tracker and rows alone
    match sessionTick c.session username [] now call w.db with
    | (.ok _, db) => { w with db }
    | (.error _, db) => { db, conns := Function.update w.conns k none }

def clientStep (threshold : Int) (w : Clients) : ClientEvent → Option Clients
  | .accept k now heartbeatInterval =>
    if (w.conns k).isSome then none
    else some { w with conns := Function.update w.conns k (some ⟨.new now heartbeatInterval, none⟩) }
  | .login k site input calls now =>
    match w.conns k with
    | some ⟨session, none⟩ =>
      let (answer, db) := authenticateTokenLogin (site.deps k threshold) input calls w.db
      let conn :=
        match answer with
        | .ok (.accepted username _) => some ⟨session.markRx now, some username⟩
        | _ => none
      some { db, conns := Function.update w.conns k conn }
    | _ => none
  | .packet k now =>
    (w.conns k).map fun c =>
      { w with conns := Function.update w.conns k (some { c with session := c.session.markRx now }) }
  | .tick k now call => (w.conns k).map fun c => clientTick w k c now call
  | .close k => some { w with conns := Function.update w.conns k none }
  | .db now op => if op.isHeartbeat then none else some { w with db := op.exec threshold now w.db }

/-! ## What a tick does to the rows -/

/-- The row that a tick refreshes: the account's, if the client was silent, the statement runs and the row is
`ACTIVE`. -/
def refreshedRow (w : Clients) (k : Connection) (now : Instant) (call : DbCall) : Option (String × SessionRow) :=
  match w.conns k with
  | some ⟨session, some username⟩ =>
    match w.db.sessions username with
    | some r =>
      if session.onTick now = some .sendHeartbeat ∧ call.delivery ≠ .lostBefore ∧ r.state = .active then
        some (username, r)
      else none
    | none => none
  | _ => none

theorem DbCall.exec_snd {α : Type} (call : DbCall) (context : String) (statement : Int → GameDb → α × GameDb)
    (db : GameDb) :
    (call.exec context statement db).2 = if call.delivery = .lostBefore then db else (statement call.now db).2 := by
  unfold DbCall.exec
  cases call.delivery <;> rfl

/-- A tick writes no row but the one it refreshes. -/
theorem clientTick_db {threshold : Int} {w w' : Clients} {k : Connection} {now : Instant} {call : DbCall}
    (h : clientStep threshold w (.tick k now call) = some w') :
    w'.db = match refreshedRow w k now call with
      | some (u, r) => w.db.setSession u { r with lastHeartbeat := call.now }
      | none => w.db := by
  obtain ⟨c, hc, rfl⟩ := Option.map_eq_some_iff.1 h
  obtain ⟨session, username⟩ := c
  unfold clientTick refreshedRow
  rw [hc]
  cases username with
  | none =>
    dsimp only
    split <;> rfl
  | some u =>
    dsimp only
    unfold sessionTick
    cases ht : session.onTick now with
    | none => cases w.db.sessions u <;> simp
    | some t =>
      cases t with
      | timedOut => cases w.db.sessions u <;> simp
      | sendHeartbeat =>
        dsimp only
        rw [DbCall.exec_snd]
        unfold updateSessionHeartbeat
        cases w.db.sessions u with
        | none => simp
        | some r =>
          by_cases hd : call.delivery = .lostBefore
          · simp [hd]
          · by_cases hs : r.state = .active
            · simp [hd, hs]
            · simp [hd, hs]

theorem refreshedRow_row {w : Clients} {k : Connection} {now : Instant} {call : DbCall} {u : String} {r : SessionRow}
    (h : refreshedRow w k now call = some (u, r)) : w.db.sessions u = some r ∧ r.state = .active := by
  unfold refreshedRow at h
  split at h
  · split at h
    · rename_i r' hr
      split at h
      · rename_i hc
        cases h
        exact ⟨hr, hc.2.2⟩
      · cases h
    · cases h
  · cases h

/-! ## Whose lease a tick keeps alive -/

/-- A tick leaves the last heartbeat of every row that is not its connection's as it is. -/
def LeavesOthersBeat (threshold : Int) (w : Clients) (event : ClientEvent) : Prop :=
  ∀ k now call, event = .tick k now call → ∀ u, ¬ HoldsSession w.db u k → ∀ w', clientStep threshold w event = some w' →
    (w'.db.sessions u).map SessionRow.lastHeartbeat = (w.db.sessions u).map SessionRow.lastHeartbeat

/-- A tick refreshes its own connection's row, or writes the value it finds. -/
def OwnTick (w : Clients) : ClientEvent → Prop
  | .tick k now call => ∀ p, refreshedRow w k now call = some p → p.2.heldBy k ∨ p.2.lastHeartbeat = call.now
  | _ => True

theorem leavesOthersBeat_iff {threshold : Int} {w : Clients} {event : ClientEvent} :
    LeavesOthersBeat threshold w event ↔ OwnTick w event := by
  cases event with
  | tick k now call =>
    constructor
    · rintro h ⟨u, r⟩ hp
      obtain ⟨hr, _⟩ := refreshedRow_row hp
      by_contra hno
      push Not at hno
      -- the tick of a connection that is there has a next state
      obtain ⟨w', hw'⟩ : ∃ w', clientStep threshold w (.tick k now call) = some w' := by
        cases hc : w.conns k with
        | none => simp [refreshedRow, hc] at hp
        | some c => exact ⟨clientTick w k c now call, by simp [clientStep, hc]⟩
      have hrows := h k now call rfl u ?_ w' hw'
      · rw [clientTick_db hw', hp] at hrows
        simp only [GameDb.setSession_sessions_self, hr, Option.map_some, Option.some.injEq] at hrows
        exact hno.2 hrows.symm
      · rintro ⟨r', hr', hheld⟩
        rw [hr] at hr'
        cases hr'
        exact hno.1 hheld
    · rintro h k' now' call' ⟨⟩ u hno w' hw'
      rw [clientTick_db hw']
      cases hp : refreshedRow w k now call with
      | none => rfl
      | some p =>
        obtain ⟨u', r⟩ := p
        obtain ⟨hr, _⟩ := refreshedRow_row hp
        dsimp only
        by_cases hu : u = u'
        · subst hu
          rcases h _ hp with hheld | heq
          · exact absurd ⟨r, hr, hheld⟩ hno
          · simp only [GameDb.setSession_sessions_self, hr, Option.map_some]
            exact congrArg some heq.symm
        · rw [GameDb.setSession_sessions_of_ne _ _ hu]
  | accept => exact iff_of_true (by rintro _ _ _ ⟨⟩) trivial
  | login => exact iff_of_true (by rintro _ _ _ ⟨⟩) trivial
  | packet => exact iff_of_true (by rintro _ _ _ ⟨⟩) trivial
  | close => exact iff_of_true (by rintro _ _ _ ⟨⟩) trivial
  | db => exact iff_of_true (by rintro _ _ _ ⟨⟩) trivial

/-- A step of another connection: a lease that is there after it was there before, with the same last heartbeat. -/
theorem clientStep_heldBefore {threshold : Int} {w w' : Clients} {event : ClientEvent} {k : Connection} {u : String}
    {r' : SessionRow} (hstep : clientStep threshold w event = some w') (hown : OwnTick w event)
    (hk : event.connection ≠ some k) (hr' : w'.db.sessions u = some r') (hheld : r'.heldBy k) :
    HeldBefore w.db u k r' := by
  have hsame : w'.db = w.db → HeldBefore w.db u k r' := fun h => ⟨r', h ▸ hr', hheld, rfl⟩
  cases event with
  | accept k' now interval =>
    simp only [clientStep] at hstep
    split at hstep
    · cases hstep
    · cases hstep
      exact hsame rfl
  | login k' site input calls now =>
    simp only [clientStep] at hstep
    split at hstep
    · cases hstep
      exact (authenticateTokenLogin_execBy input (site.deps_mode k' threshold) calls w.db).heldBefore
        (fun h => hk (congrArg some h.symm)) hr' hheld
    · cases hstep
  | packet k' now =>
    obtain ⟨c, _, rfl⟩ := Option.map_eq_some_iff.1 hstep
    exact hsame rfl
  | tick k' now call =>
    have hdb := clientTick_db hstep
    cases hp : refreshedRow w k' now call with
    | none =>
      rw [hp] at hdb
      exact hsame hdb
    | some p =>
      obtain ⟨u', r⟩ := p
      obtain ⟨hr, _⟩ := refreshedRow_row hp
      rw [hp] at hdb
      dsimp only at hdb
      rw [hdb] at hr'
      by_cases hu : u = u'
      · subst hu
        rw [GameDb.setSession_sessions_self] at hr'
        cases hr'
        -- the refreshed row is the ticking connection's, or it is as before
        rcases hown _ hp with hk' | heq
        · exact absurd (congrArg some (SessionRow.heldBy_unique hk' hheld)) hk
        · exact ⟨r, hr, hheld, heq⟩
      · rw [GameDb.setSession_sessions_of_ne _ _ hu] at hr'
        exact ⟨r', hr', hheld, rfl⟩
  | close k' =>
    cases hstep
    exact hsame rfl
  | db now op =>
    simp only [clientStep] at hstep
    split at hstep
    · cases hstep
    · rename_i hop
      cases hstep
      exact DbOp.heldBefore_of_other (by simpa using hop) hk hr' hheld

/-- Over a run without a step of its owner, a lease that is still there has kept its last heartbeat. -/
theorem run_heldBefore {threshold : Int} {k : Connection} {u : String} {r' : SessionRow} (hheld : r'.heldBy k) :
    ∀ {events : List ClientEvent} {w w' : Clients}, run (clientStep threshold) w events = some w' →
      Meets (clientStep threshold) OwnTick w events → (∀ event ∈ events, event.connection ≠ some k) →
      w'.db.sessions u = some r' → HeldBefore w.db u k r'
  | [], _, _, hrun, _, _, hr' => by
    cases hrun
    exact ⟨r', hr', hheld, rfl⟩
  | event :: events, w, w', hrun, hmeets, hk, hr' => by
    obtain ⟨t, hstep, hrun⟩ := (run_cons_eq_some _).1 hrun
    obtain ⟨r, hr, hr_held, hbeat⟩ := run_heldBefore hheld hrun (hmeets.2 t hstep)
      (fun e he => hk e (List.mem_cons_of_mem _ he)) hr'
    obtain ⟨r₀, hr₀, hr₀_held, hbeat₀⟩ := clientStep_heldBefore hstep hmeets.1 (hk event List.mem_cons_self) hr hr_held
    exact ⟨r₀, hr₀, hr₀_held, hbeat₀.trans hbeat⟩

/-- In every interleaving of connections, logins, ticks and other statements: the ticks leave the last heartbeat of
every row that is not their connection's alone exactly when each of them finds its account's row in its own hands, not
`ACTIVE`, or its client not silent. In such a run the row of an owner that takes no more steps keeps its last heartbeat
for as long as it is the owner's, and is stale once the threshold has passed. -/
theorem heartbeats_keep_own_lease_iff {threshold : Int} {w w' : Clients} {events : List ClientEvent}
    (hrun : run (clientStep threshold) w events = some w') :
    (Meets (clientStep threshold) (LeavesOthersBeat threshold) w events ↔
      Meets (clientStep threshold) OwnTick w events) ∧
    (Meets (clientStep threshold) OwnTick w events → ∀ u k r, w.db.sessions u = some r → r.heldBy k →
      (∀ event ∈ events, event.connection ≠ some k) → ∀ r', w'.db.sessions u = some r' → r'.heldBy k →
        r'.lastHeartbeat = r.lastHeartbeat ∧ ∀ now, r.lastHeartbeat + threshold * 1000000 < now →
          r'.staleAt now threshold) := by
  constructor
  · exact meets_congr (I := fun _ => True) (fun _ _ _ _ _ => ⟨leavesOthersBeat_iff, fun _ => trivial⟩) trivial hrun
  · intro hmeets u k r hr _ hdead r' hr' hheld
    obtain ⟨r₀, hr₀, _, hbeat⟩ := run_heldBefore hheld hrun hmeets hdead hr'
    rw [hr] at hr₀
    cases hr₀
    refine ⟨hbeat.symm, fun now hnow => ?_⟩
    simp only [SessionRow.staleAt, decide_eq_true_eq]
    omega

/-! ## A takeover -/

def connA : Connection := ⟨"core-1", "a"⟩

def connB : Connection := ⟨"core-2", "b"⟩

/-- An account that holds a token and is logged in nowhere, and no connections. -/
def clientsStart : Clients where
  db := ⟨fun _ => none, fun _ => none, fun _ => none, fun _ => some ⟨none, none, 0, some 7, some 0, none, .authed⟩⟩
  conns := fun _ => none

def loginAt (k : Connection) (secs : Nat) : ClientEvent :=
  .login k ⟨fun _ _ _ => false, "10.0.0.1", 3600, true⟩ ⟨"admin", 7, zeroKey⟩
    ⟨⟨secs * 1000000, .done⟩, ⟨secs * 1000000, .done⟩, ⟨secs * 1000000, .done⟩, .ok ⟨false, some .red⟩⟩
      (secs * 1000000000)

def packetAt (k : Connection) (secs : Nat) : ClientEvent := .packet k (secs * 1000000000)

def tickAt (k : Connection) (secs : Nat) : ClientEvent := .tick k (secs * 1000000000) ⟨secs * 1000000, .done⟩

/-- The client of the first connection plays on, so that no tick in 100 seconds finds it silent and its row is stale
when the second one logs in, which dies at once. -/
def takeoverEvents : List ClientEvent :=
  [.accept connA 0 10000000000, loginAt connA 1] ++
    (List.range 10).flatMap (fun i => [packetAt connA (i * 10 + 9), tickAt connA (i * 10 + 11)]) ++
    [.accept connB 105000000000 10000000000, loginAt connB 105, .close connB]

/-- The first connection ends before its next tick: the row of the dead owner is stale after a minute. -/
theorem heartbeats_keep_own_lease_iff_closed :
    ∃ w w', run (clientStep 60) clientsStart takeoverEvents = some w ∧ run (clientStep 60) w [.close connA] = some w' ∧
      HoldsSession w'.db "admin" connB ∧ ∀ r', w'.db.sessions "admin" = some r' → ∀ now, 165000000 < now →
        r'.staleAt now 60 := by
  obtain ⟨w, w', hw, hw', hrow, hrow'⟩ : ∃ w w', run (clientStep 60) clientsStart takeoverEvents = some w ∧
      run (clientStep 60) w [.close connA] = some w' ∧
      w.db.sessions "admin" = some ⟨some "core-2", some "b", 105000000, some 7, some 105000000,
        some "10.0.0.1", .active⟩ ∧
      w'.db.sessions "admin" = some ⟨some "core-2", some "b", 105000000, some 7, some 105000000,
        some "10.0.0.1", .active⟩ :=
    ⟨_, _, rfl, rfl, rfl, rfl⟩
  refine ⟨w, w', hw, hw', ⟨_, hrow', rfl, rfl, rfl⟩, fun r' hr' now hnow => ?_⟩
  have hmeets : Meets (clientStep 60) OwnTick w [.close connA] := ⟨trivial, fun _ _ => trivial⟩
  have hdead : ∀ event ∈ [ClientEvent.close connA], event.connection ≠ some connB := by
    simp [ClientEvent.connection, connA, connB]
  have hheld : r'.heldBy connB := by
    rw [hrow'] at hr'
    cases hr'
    exact ⟨rfl, rfl, rfl⟩
  exact ((heartbeats_keep_own_lease_iff hw').2 hmeets "admin" connB _ hrow ⟨rfl, rfl, rfl⟩ hdead r' hr' hheld).2 now
    (by dsimp only; omega)

/-- The first connection lives on without its lease: its next tick refreshes the dead owner's row, which is not stale a
minute later. -/
theorem tick_refreshes_lost_lease :
    ∃ w w', run (clientStep 60) clientsStart takeoverEvents = some w ∧ clientStep 60 w (tickAt connA 111) = some w' ∧
      ¬ HoldsSession w.db "admin" connA ∧ HoldsSession w.db "admin" connB ∧
      (w.db.sessions "admin").map SessionRow.lastHeartbeat = some 105000000 ∧
      (w'.db.sessions "admin").map SessionRow.lastHeartbeat = some 111000000 ∧
      (w.db.sessions "admin").map (fun r => r.staleAt 166000000 60) = some true ∧
      (w'.db.sessions "admin").map (fun r => r.staleAt 166000000 60) = some false := by
  refine ⟨_, _, rfl, rfl, ?_, ⟨_, rfl, rfl, rfl, rfl⟩, rfl, rfl, by decide, by decide⟩
  rintro ⟨r, hr, hheld⟩
  cases hr
  exact absurd hheld.2.1 (by decide)

end Zohar.Game
