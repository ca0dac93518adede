/-
The session row of an account as a lease. Eight statements write it; a row is `AUTHED` exactly when it has no
owner, and a fresh lease passes to another connection only after its owner gave it up.
-/
import Zohar.Db.Queries
import Mathlib.Tactic

namespace Zohar.Db

/-! ## Who is handed a session, and who gives one up -/

/-- The connection that issues an operation. -/
def DbOp.connection : DbOp → Option Connection
  | .commit _ _ _ k _ => some k
  | .session (.acquireSession _ k) => some k
  | .session (.resumeSessionWithToken _ _ k _ _) => some k
  | .session (.markSessionStale _ k) => some k
  | .session (.releaseSession _ k) => some k
  | _ => none

/-- The connection that is told it has the session of `u`. -/
def DbOp.grants (threshold now : Int) (db : GameDb) (u : String) : DbOp → Option Connection
  | .session (.acquireSession u' k) =>
    if u' = u then
      match (Db.acquireSession now u' k.serverId k.connectionId threshold db).1 with
      | .ok .acquired => some k
      | _ => none
    else none
  | .session (.resumeSessionWithToken u' token k ttl ip) =>
    if u' = u ∧ (Db.resumeSessionWithToken now u' token k.serverId k.connectionId threshold ttl ip db).1 then
      some k
    else none
  | _ => none

/-- The connection that gives the session of `u` up: it releases it, or its exit succeeds. -/
def DbOp.givesUp (now : Int) (db : GameDb) (u : String) : DbOp → Option Connection
  | .session (.releaseSession u' k) => if u' = u then some k else none
  | .commit fault kind u' k s =>
    if u' = u then
      match (commitPlayerExit now fault kind u' k.serverId k.connectionId s db).1 with
      | .ok () => some k
      | .error _ => none
    else none
  | _ => none

def SessionRow.unowned (r : SessionRow) : Prop := r.state = .authed ∧ r.serverId = none ∧ r.connectionId = none

def SessionRow.heldBy (r : SessionRow) (k : Connection) : Prop :=
  r.state = .active ∧ r.serverId = some k.serverId ∧ r.connectionId = some k.connectionId

theorem SessionRow.ownedBy_iff {r : SessionRow} {sid cid : String} :
    r.ownedBy sid cid ↔ r.serverId = some sid ∧ r.connectionId = some cid := by simp [SessionRow.ownedBy]

/-- All that an operation can do to the row of one account. -/
inductive RowStep (threshold now : Int) (db : GameDb) (op : DbOp) (u : String) : Option SessionRow →
    Option SessionRow → Prop
  | kept (o : Option SessionRow) (hg : op.grants threshold now db u = none) : RowStep threshold now db op u o o
  /-- The owner stays; a row that has one may become `ACTIVE`. -/
  | touched {r r' : SessionRow} (hg : op.grants threshold now db u = none) (hs : r'.serverId = r.serverId)
      (hc : r'.connectionId = r.connectionId)
      (hst : r'.state = r.state ∨ r'.state = .active ∧ r.serverId.isSome ∧ r.connectionId.isSome) :
      RowStep threshold now db op u (some r) (some r')
  /-- A row without an owner gets, or keeps, none. -/
  | cleared {o : Option SessionRow} {r' : SessionRow} (hg : op.grants threshold now db u = none)
      (ho : ∀ r ∈ o, ¬ (r.state = .active ∧ r.serverId.isSome ∧ r.connectionId.isSome)) (hr : r'.unowned) :
      RowStep threshold now db op u o (some r')
  /-- A free or stale session is taken, or its owner resumes it. -/
  | granted {o : Option SessionRow} {r' : SessionRow} {k : Connection} (hg : op.grants threshold now db u = some k)
      (ho : ∀ r ∈ o, r.state = .authed ∨ r.staleAt now threshold ∨ r.ownedBy k.serverId k.connectionId)
        (hr : r'.heldBy k) :
      RowStep threshold now db op u o (some r')
  /-- A fresh session stays with the connection of the same id. -/
  | confirmed {r : SessionRow} {k : Connection} (hg : op.grants threshold now db u = some k)
      (hc : r.connectionId = some k.connectionId) (hst : r.state = .active) :
        RowStep threshold now db op u (some r) (some r)
  | released {r r' : SessionRow} {k : Connection} (hg : op.grants threshold now db u = none)
      (hu : op.givesUp now db u = some k) (ho : r.ownedBy k.serverId k.connectionId) (hr : r'.unowned) :
      RowStep threshold now db op u (some r) (some r')

/-! ## The step lemma, statement by statement -/

section
variable (threshold now : Int) (db : GameDb) (u : String)

theorem setSessionLoginToken_rowStep (u' : String) (token : UInt32) :
    RowStep threshold now db (.session (.setSessionLoginToken u' token)) u (db.sessions u)
      ((Db.setSessionLoginToken now u' token db).sessions u) := by
  by_cases hu : u = u'
  · subst hu
    simp only [setSessionLoginToken, GameDb.setSession_sessions_self]
    cases db.sessions u with
    | none => exact .cleared rfl (by simp) ⟨rfl, rfl, rfl⟩
    | some r =>
      simp only [loginTokenRow]
      split
      · exact .touched rfl rfl rfl (.inl rfl)
      · rename_i h
        exact .cleared rfl (by simpa using h) ⟨rfl, rfl, rfl⟩
  · simp only [setSessionLoginToken, GameDb.setSession_sessions_of_ne _ _ hu]
    exact .kept _ rfl

theorem acquireSession_snd (u' sid cid : String) :
    (Db.acquireSession now u' sid cid threshold db).2 = db.setSession u'
      (acquireRow now threshold sid cid (db.sessions u')) := by
  unfold Db.acquireSession
  dsimp only
  split
  · rfl
  · split
    · rfl
    · split <;> rfl

theorem acquireSession_acquired_iff (u' sid cid : String) :
    (Db.acquireSession now u' sid cid threshold db).1 = .ok .acquired ↔
      (acquireRow now threshold sid cid (db.sessions u')).connectionId = some cid := by
  unfold Db.acquireSession
  dsimp only
  split
  · rename_i h
    simp [h]
  · rename_i c h
    split
    · simp_all
    · split <;> simp_all

theorem acquireSession_rowStep (u' : String) (k : Connection) :
    RowStep threshold now db (.session (.acquireSession u' k)) u (db.sessions u)
      ((Db.acquireSession now u' k.serverId k.connectionId threshold db).2.sessions u) := by
  rw [acquireSession_snd]
  by_cases hu : u = u'
  · subst hu
    rw [GameDb.setSession_sessions_self]
    have hgr : (acquireRow now threshold k.serverId k.connectionId (db.sessions u)).connectionId = some k.connectionId →
        (DbOp.session (.acquireSession u k)).grants threshold now db u = some k := by
      intro h
      have := (acquireSession_acquired_iff threshold now db u k.serverId k.connectionId).2 h
      simp [DbOp.grants, this]
    have hng : (acquireRow now threshold k.serverId k.connectionId (db.sessions u)).connectionId ≠ some k.connectionId →
        (DbOp.session (.acquireSession u k)).grants threshold now db u = none := by
      intro h
      have hnot := mt (acquireSession_acquired_iff threshold now db u k.serverId k.connectionId).1 h
      simp [DbOp.grants]
    cases hrow : db.sessions u with
    | none =>
      rw [hrow] at hgr
      exact .granted (hgr rfl) (by simp) ⟨rfl, rfl, rfl⟩
    | some r =>
      rw [hrow] at hgr hng
      simp only [acquireRow] at hgr hng ⊢
      split
      · rename_i h
        rw [if_pos h] at hgr
        exact .granted (hgr rfl) (by rintro _ ⟨⟩; exact h.imp_right .inl) ⟨rfl, rfl, rfl⟩
      · rename_i h
        rw [if_neg h] at hgr hng
        have hst : r.state = .active := by
          cases hs : r.state with
          | active => rfl
          | authed => exact absurd (.inl hs) h
        by_cases hc : r.connectionId = some k.connectionId
        · exact .confirmed (hgr hc) hc hst
        · exact .kept _ (hng hc)
  · rw [GameDb.setSession_sessions_of_ne _ _ hu]
    exact .kept _ (by simp [DbOp.grants, Ne.symm hu])

theorem resumeSessionWithToken_rowStep (u' : String) (token : UInt32) (k : Connection) (ttl : Int) (ip : String) :
    RowStep threshold now db (.session (.resumeSessionWithToken u' token k ttl ip)) u (db.sessions u)
      ((Db.resumeSessionWithToken now u' token k.serverId k.connectionId threshold ttl ip db).2.sessions u) := by
  by_cases hu : u = u'
  · subst hu
    cases hrow : db.sessions u with
    | none =>
      have hres : Db.resumeSessionWithToken now u token k.serverId k.connectionId threshold ttl ip db =
          (false, db) := by
        simp only [Db.resumeSessionWithToken, hrow]
      rw [hres, hrow]
      exact .kept _ (by simp [DbOp.grants, hres])
    | some r =>
      by_cases h : r.loginToken = some (token.toNat : Int) ∧ r.tokenLive now ttl ∧
        (r.peerIp = none ∨ r.peerIp = some ip) ∧
          (r.state = .authed ∨ r.staleAt now (max threshold 0) ∨ r.ownedBy k.serverId k.connectionId)
      · simp only [Db.resumeSessionWithToken, hrow]
        rw [if_pos h, GameDb.setSession_sessions_self]
        refine .granted (by simp [DbOp.grants, Db.resumeSessionWithToken, hrow, h]) ?_ ⟨rfl, rfl, rfl⟩
        rintro _ ⟨⟩
        -- a negative threshold makes `acquire_session` more liberal, never less
        refine h.2.2.2.imp_right (Or.imp_left fun hs => ?_)
        simp only [SessionRow.staleAt, decide_eq_true_eq] at hs ⊢
        omega
      · have hres : Db.resumeSessionWithToken now u token k.serverId k.connectionId threshold ttl ip db =
            (false, db) := by
          simp only [Db.resumeSessionWithToken, hrow]
          rw [if_neg h]
        rw [hres, hrow]
        exact .kept _ (by simp [DbOp.grants, hres])
  · have hother : (Db.resumeSessionWithToken now u' token k.serverId k.connectionId threshold ttl ip db).2.sessions u =
        db.sessions u := by
      unfold Db.resumeSessionWithToken
      split
      · split
        · simp [hu]
        · rfl
      · rfl
    rw [hother]
    exact .kept _ (by simp [DbOp.grants, Ne.symm hu])

theorem validateLoginToken_rowStep (u' : String) (token : UInt32) (ttl : Int) (ip : String) :
    RowStep threshold now db (.session (.validateLoginToken u' token ttl ip)) u (db.sessions u)
      ((Db.validateLoginToken now u' token ttl ip db).2.sessions u) := by
  unfold Db.validateLoginToken
  split
  · rename_i r hrow
    split
    · by_cases hu : u = u'
      · subst hu
        rw [hrow, GameDb.setSession_sessions_self]
        exact .touched rfl rfl rfl (.inl rfl)
      · rw [GameDb.setSession_sessions_of_ne _ _ hu]
        exact .kept _ rfl
    · exact .kept _ rfl
  · exact .kept _ rfl

theorem markSessionStale_rowStep (u' : String) (k : Connection) :
    RowStep threshold now db (.session (.markSessionStale u' k)) u (db.sessions u)
      ((Db.markSessionStale now u' k.serverId k.connectionId threshold db).sessions u) := by
  unfold Db.markSessionStale
  split
  · rename_i r hrow
    split
    · rename_i ho
      by_cases hu : u = u'
      · subst hu
        rw [hrow, GameDb.setSession_sessions_self]
        rw [SessionRow.ownedBy_iff] at ho
        exact .touched rfl rfl rfl (.inr ⟨rfl, by simp [ho.1], by simp [ho.2]⟩)
      · rw [GameDb.setSession_sessions_of_ne _ _ hu]
        exact .kept _ rfl
    · exact .kept _ rfl
  · exact .kept _ rfl

theorem updateSessionHeartbeat_rowStep (u' : String) :
    RowStep threshold now db (.session (.updateSessionHeartbeat u')) u (db.sessions u)
      ((Db.updateSessionHeartbeat now u' db).sessions u) := by
  unfold Db.updateSessionHeartbeat
  split
  · rename_i r hrow
    split
    · by_cases hu : u = u'
      · subst hu
        rw [hrow, GameDb.setSession_sessions_self]
        exact .touched rfl rfl rfl (.inl rfl)
      · rw [GameDb.setSession_sessions_of_ne _ _ hu]
        exact .kept _ rfl
    · exact .kept _ rfl
  · exact .kept _ rfl

theorem releaseSession_rowStep (u' : String) (k : Connection) :
    RowStep threshold now db (.session (.releaseSession u' k)) u (db.sessions u)
      ((Db.releaseSession u' k.serverId k.connectionId db).2.sessions u) := by
  unfold Db.releaseSession releaseStatement
  dsimp only
  split
  · rename_i r hrow
    split
    · rename_i ho
      by_cases hu : u = u'
      · subst hu
        rw [hrow, GameDb.setSession_sessions_self]
        exact .released rfl (by simp [DbOp.givesUp]) ho ⟨rfl, rfl, rfl⟩
      · rw [GameDb.setSession_sessions_of_ne _ _ hu]
        exact .kept _ rfl
    · exact .kept _ rfl
  · exact .kept _ rfl

theorem commitPlayerExit_rowStep (fault : Option ExitStage) (kind : PlayerExitKind) (u' : String) (k : Connection)
    (s : PlayerSnapshot) :
    RowStep threshold now db (.commit fault kind u' k s) u (db.sessions u)
      ((commitPlayerExit now fault kind u' k.serverId k.connectionId s db).2.sessions u) := by
  cases hok : (commitPlayerExit now fault kind u' k.serverId k.connectionId s db).1 with
  | error e =>
    rw [commitPlayerExit_error hok]
    exact .kept _ rfl
  | ok a =>
    obtain ⟨_, r, q, row, _, _, _, hrow, ho, h2⟩ := commitPlayerExit_ok hok
    rw [h2]
    by_cases hu : u = u'
    · subst hu
      rw [hrow, GameDb.setSession_sessions_self]
      exact .released rfl (by simp [DbOp.givesUp, hok]) ho ⟨rfl, rfl, rfl⟩
    · rw [GameDb.setSession_sessions_of_ne _ _ hu]
      exact .kept _ rfl

theorem savePlayerSnapshot_sessions (fault : Bool) (s : PlayerSnapshot) :
    (savePlayerSnapshot now fault s db).2.sessions = db.sessions := by
  rcases savePlayerSnapshot_cases now fault s db with h | ⟨r, _, _, ⟨_, h⟩ | ⟨q, _, _, h⟩⟩ <;> rw [h] <;> rfl

theorem DbOp.exec_rowStep (op : DbOp) :
    RowStep threshold now db op u (db.sessions u) ((op.exec threshold now db).sessions u) := by
  cases op with
  | save fault s =>
    rw [DbOp.exec, savePlayerSnapshot_sessions]
    exact .kept _ rfl
  | commit fault kind u' k s => exact commitPlayerExit_rowStep threshold now db u fault kind u' k s
  | session op =>
    cases op with
    | setSessionLoginToken u' token => exact setSessionLoginToken_rowStep threshold now db u u' token
    | acquireSession u' k => exact acquireSession_rowStep threshold now db u u' k
    | resumeSessionWithToken u' token k ttl ip =>
      exact resumeSessionWithToken_rowStep threshold now db u u' token k ttl ip
    | validateLoginToken u' token ttl ip => exact validateLoginToken_rowStep threshold now db u u' token ttl ip
    | markSessionStale u' k => exact markSessionStale_rowStep threshold now db u u' k
    | releaseSession u' k => exact releaseSession_rowStep threshold now db u u' k
    | updateSessionHeartbeat u' => exact updateSessionHeartbeat_rowStep threshold now db u u'

end

/-! ## What others do to a lease -/

/-- `update_session_heartbeat`, the one statement that asks for the account and not for the owner. -/
def DbOp.isHeartbeat : DbOp → Bool
  | .session (.updateSessionHeartbeat _) => true
  | _ => false

theorem SessionRow.heldBy_unique {r : SessionRow} {k k' : Connection} (h : r.heldBy k) (h' : r.heldBy k') : k = k' := by
  obtain ⟨_, hs, hc⟩ := h
  obtain ⟨_, hs', hc'⟩ := h'
  cases k
  cases k'
  simp_all

theorem SessionRow.heldBy_owner {r : SessionRow} {k k' : Connection} (h : r.heldBy k)
    (how : r.ownedBy k'.serverId k'.connectionId) : k' = k := by
  rw [SessionRow.ownedBy_iff] at how
  exact SessionRow.heldBy_unique ⟨h.1, how.1, how.2⟩ h

/-- The connection's lease before a statement that leaves it with this row. -/
def HeldBefore (db : GameDb) (u : String) (k : Connection) (r' : SessionRow) : Prop :=
  ∃ r, db.sessions u = some r ∧ r.heldBy k ∧ r.lastHeartbeat = r'.lastHeartbeat

/-- A statement of another writes no row, or one that is not the connection's unless it was. -/
theorem DbOp.exec_of_other {threshold now : Int} {db : GameDb} {op : DbOp} {k : Connection}
    (hop : op.isHeartbeat = false) (hk : op.connection ≠ some k) :
    (op.exec threshold now db).sessions = db.sessions ∨ ∃ u r',
      (op.exec threshold now db).sessions = (db.setSession u r').sessions ∧
      (r'.heldBy k → HeldBefore db u k r') := by
  have hgiven : ∀ {k' : Connection} {r : SessionRow}, op.connection = some k' → r.serverId = some k'.serverId →
      r.connectionId = some k'.connectionId → ¬ r.heldBy k := by
    intro k' r hk' hs hc hr
    exact hk (hk'.trans (congrArg some (SessionRow.heldBy_unique ⟨hr.1, hs, hc⟩ hr)))
  cases op with
  | save fault s => exact .inl (savePlayerSnapshot_sessions now db fault s)
  | commit fault kind u k' s =>
    cases hok : (commitPlayerExit now fault kind u k'.serverId k'.connectionId s db).1 with
    | error e => exact .inl (by rw [DbOp.exec, commitPlayerExit_error hok])
    | ok a =>
      obtain ⟨_, r, q, row, _, _, _, _, _, h2⟩ := commitPlayerExit_ok hok
      refine .inr ⟨u, _, by rw [DbOp.exec, h2]; rfl, fun h => ?_⟩
      cases h.1
  | session op =>
    cases op with
    | setSessionLoginToken u token =>
      refine .inr ⟨u, _, rfl, fun h => ?_⟩
      cases hrow : db.sessions u with
      | none =>
        rw [hrow] at h
        cases h.1
      | some r =>
        rw [hrow] at h
        unfold loginTokenRow at h ⊢
        dsimp only at h ⊢
        split at h
        · rename_i hc
          exact ⟨r, hrow, h, by rw [if_pos hc]⟩
        · cases h.1
    | acquireSession u k' =>
      refine .inr ⟨u, _, by rw [DbOp.exec, SessionOp.exec, acquireSession_snd], fun h => ?_⟩
      cases hrow : db.sessions u with
      | none =>
        rw [hrow] at h
        exact absurd h (hgiven rfl rfl rfl)
      | some r =>
        rw [hrow] at h
        unfold acquireRow at h ⊢
        dsimp only at h ⊢
        split at h
        · exact absurd h (hgiven rfl rfl rfl)
        · rename_i hc
          exact ⟨r, hrow, h, by rw [if_neg hc]⟩
    | resumeSessionWithToken u token k' ttl ip =>
      simp only [DbOp.exec, SessionOp.exec, Db.resumeSessionWithToken]
      split
      · split
        · exact .inr ⟨u, _, rfl, fun h => absurd h (hgiven rfl rfl rfl)⟩
        · exact .inl rfl
      · exact .inl rfl
    | validateLoginToken u token ttl ip =>
      simp only [DbOp.exec, SessionOp.exec, Db.validateLoginToken]
      split
      · rename_i r hrow
        split
        · exact .inr ⟨u, _, rfl, fun h => ⟨r, hrow, h, rfl⟩⟩
        · exact .inl rfl
      · exact .inl rfl
    | markSessionStale u k' =>
      simp only [DbOp.exec, SessionOp.exec, Db.markSessionStale]
      split
      · split
        · rename_i ho
          rw [SessionRow.ownedBy_iff] at ho
          exact .inr ⟨u, _, rfl, fun h => absurd h (hgiven rfl ho.1 ho.2)⟩
        · exact .inl rfl
      · exact .inl rfl
    | releaseSession u k' =>
      simp only [DbOp.exec, SessionOp.exec, Db.releaseSession, releaseStatement]
      split
      · split
        · refine .inr ⟨u, _, rfl, fun h => ?_⟩
          cases h.1
        · exact .inl rfl
      · exact .inl rfl
    | updateSessionHeartbeat u => cases hop

/-- A row that a connection holds after another's statement it held before, with the same last heartbeat. -/
theorem DbOp.heldBefore_of_other {threshold now : Int} {db : GameDb} {u : String} {op : DbOp} {k : Connection}
    {r' : SessionRow} (hop : op.isHeartbeat = false) (hk : op.connection ≠ some k)
    (hr' : (op.exec threshold now db).sessions u = some r') (hheld : r'.heldBy k) : HeldBefore db u k r' := by
  rcases @DbOp.exec_of_other threshold now db op k hop hk with h | ⟨u', r'', h, hback⟩
  · exact ⟨r', by rw [← h]; exact hr', hheld, rfl⟩
  · rw [h] at hr'
    by_cases hu : u = u'
    · subst hu
      rw [GameDb.setSession_sessions_self] at hr'
      cases hr'
      exact hback hheld
    · rw [GameDb.setSession_sessions_of_ne _ _ hu] at hr'
      exact ⟨r', hr', hheld, rfl⟩

/-- The second database is the first after statements of one connection, none of them a heartbeat. -/
inductive ExecBy (threshold : Int) (k : Connection) : GameDb → GameDb → Prop
  | none (db : GameDb) : ExecBy threshold k db db
  | one {db db' : GameDb} (h : ExecBy threshold k db db') (now : Int) (op : DbOp) (hop : op.isHeartbeat = false)
      (hk : ∀ k', op.connection = some k' → k' = k) : ExecBy threshold k db (op.exec threshold now db')

theorem ExecBy.trans {threshold : Int} {k : Connection} {db db' db'' : GameDb} (h : ExecBy threshold k db db')
    (h' : ExecBy threshold k db' db'') : ExecBy threshold k db db'' := by
  induction h' with
  | none => exact h
  | one _ now op hop hk ih => exact .one ih now op hop hk

theorem ExecBy.heldBefore {threshold : Int} {k k' : Connection} {db db' : GameDb} {u : String} {r' : SessionRow}
    (h : ExecBy threshold k db db') (hne : k' ≠ k) (hr' : db'.sessions u = some r') (hheld : r'.heldBy k') :
    HeldBefore db u k' r' := by
  induction h generalizing r' with
  | none => exact ⟨r', hr', hheld, rfl⟩
  | one _ now op hop hk ih =>
    obtain ⟨r, hr, hr_held, hbeat⟩ := DbOp.heldBefore_of_other hop (fun hc => hne (hk k' hc)) hr' hheld
    obtain ⟨r₀, hr₀, hr₀_held, hbeat₀⟩ := ih hr hr_held
    exact ⟨r₀, hr₀, hr₀_held, hbeat₀.trans hbeat⟩

/-! ## A row that is not the connection's -/

/-- The row of the account is the connection's, whatever its state. -/
def OwnsSession (db : GameDb) (u : String) (k : Connection) : Prop :=
  ∃ r, db.sessions u = some r ∧ r.ownedBy k.serverId k.connectionId

/-- Only an operation that hands the session to the connection makes the row its own. -/
theorem DbOp.ownsSession_of_exec (threshold now : Int) {db : GameDb} (op : DbOp) {u : String} {k : Connection}
    (hg : op.grants threshold now db u ≠ some k) (h : OwnsSession (op.exec threshold now db) u k) :
    OwnsSession db u k := by
  obtain ⟨r', hr', how⟩ := h
  rw [SessionRow.ownedBy_iff] at how
  have hno : ¬ r'.unowned := by
    rintro ⟨_, hs, _⟩
    rw [hs] at how
    cases how.1
  have hstep := DbOp.exec_rowStep threshold now db u op
  rw [hr'] at hstep
  generalize ho : db.sessions u = o at hstep
  unfold OwnsSession
  rw [ho]
  cases hstep with
  | kept _ _ => exact ⟨r', rfl, (SessionRow.ownedBy_iff).2 how⟩
  | touched _ hs hc _ => exact ⟨_, rfl, (SessionRow.ownedBy_iff).2 ⟨hs ▸ how.1, hc ▸ how.2⟩⟩
  | cleared _ _ hr => exact absurd hr hno
  | @granted _ _ k' hgr _ hr =>
    refine absurd ?_ hg
    rw [hgr]
    have hs := hr.2.1.symm.trans how.1
    have hc := hr.2.2.symm.trans how.2
    cases k
    cases k'
    simp_all
  | confirmed _ _ _ => exact ⟨_, rfl, (SessionRow.ownedBy_iff).2 how⟩
  | released _ _ _ hr => exact absurd hr hno

theorem not_ownsSession_setSession {db : GameDb} {u : String} {k : Connection} {r : SessionRow}
    (h : r.serverId = none) :
    ¬ OwnsSession (db.setSession u r) u k := by
  rintro ⟨r', hr', how⟩
  rw [GameDb.setSession_sessions_self] at hr'
  cases hr'
  rw [SessionRow.ownedBy_iff, h] at how
  cases how.1

theorem not_ownsSession_release (db : GameDb) (u : String) (k : Connection) :
    ¬ OwnsSession (Db.releaseSession u k.serverId k.connectionId db).2 u k := by
  unfold Db.releaseSession releaseStatement
  dsimp only
  split
  · rename_i r hr
    split
    · exact not_ownsSession_setSession rfl
    · rename_i hno
      rintro ⟨r', hr', how⟩
      rw [hr] at hr'
      cases hr'
      exact hno how
  · rename_i hr
    rintro ⟨r', hr', _⟩
    rw [hr] at hr'
    cases hr'

theorem not_ownsSession_exit {now : Int} {fault : Option ExitStage} {kind : PlayerExitKind} {u : String}
    {k : Connection} {s : PlayerSnapshot} {db : GameDb}
    (h : (commitPlayerExit now fault kind u k.serverId k.connectionId s db).1 = .ok ()) :
    ¬ OwnsSession (commitPlayerExit now fault kind u k.serverId k.connectionId s db).2 u k := by
  obtain ⟨_, r, q, row, _, _, _, _, _, hdb⟩ := commitPlayerExit_ok h
  rw [hdb]
  exact not_ownsSession_setSession rfl

/-! ## Runs -/

/-- A row is `AUTHED` without an owner or `ACTIVE` with one. -/
def SessionRow.Coupled (r : SessionRow) : Prop :=
  r.unowned ∨ r.state = .active ∧ r.serverId.isSome ∧ r.connectionId.isSome

theorem SessionRow.Coupled.authed_iff {r : SessionRow} (h : r.Coupled) :
    r.state = .authed ↔ r.serverId = none ∧ r.connectionId = none := by
  rcases h with h | ⟨hs, hsid, hcid⟩
  · exact ⟨fun _ => h.2, fun _ => h.1⟩
  · constructor
    · intro ha
      rw [hs] at ha
      cases ha
    · rintro ⟨h1, _⟩
      simp [h1] at hsid

theorem RowStep.coupled {threshold now : Int} {db : GameDb} {op : DbOp} {u : String} {o o' : Option SessionRow}
    (h : RowStep threshold now db op u o o') (ho : ∀ r ∈ o, r.Coupled) : ∀ r ∈ o', r.Coupled := by
  cases h with
  | kept _ => exact ho
  | touched _ hs hc hst =>
    rintro r ⟨⟩
    rcases hst with hst | ⟨hst, hsid, hcid⟩
    · rcases ho _ rfl with ⟨h1, h2, h3⟩ | ⟨h1, h2, h3⟩
      · exact .inl ⟨hst.trans h1, hs.trans h2, hc.trans h3⟩
      · exact .inr ⟨hst.trans h1, by rw [hs]; exact h2, by rw [hc]; exact h3⟩
    · exact .inr ⟨hst, by rw [hs]; exact hsid, by rw [hc]; exact hcid⟩
  | cleared _ _ hr =>
    rintro r ⟨⟩
    exact .inl hr
  | granted _ _ hr =>
    rintro r ⟨⟩
    exact .inr ⟨hr.1, by simp [hr.2.1], by simp [hr.2.2]⟩
  | confirmed _ _ _ => exact ho
  | released _ _ _ hr =>
    rintro r ⟨⟩
    exact .inl hr

/-- A fresh lease stays with its owner until the owner gives it up. -/
theorem RowStep.heldBy {threshold now : Int} {db : GameDb} {op : DbOp} {u : String} {r : SessionRow}
    {o' : Option SessionRow} {k : Connection} (h : RowStep threshold now db op u (some r) o') (hk : r.heldBy k)
    (hkeep : r.staleAt now threshold = false ∨ ∀ k', op.grants threshold now db u = some k' → k' = k) :
    (∃ r', o' = some r' ∧ r'.heldBy k) ∨ op.givesUp now db u = some k := by
  have hheld := hk
  obtain ⟨hst, hsid, hcid⟩ := hk
  generalize ho : some r = o at h
  cases h with
  | kept _ => exact .inl ⟨r, ho.symm, hst, hsid, hcid⟩
  | touched _ hs hc hst' =>
    cases ho
    refine .inl ⟨_, rfl, ?_, hs.trans hsid, hc.trans hcid⟩
    rcases hst' with h' | h'
    · exact h'.trans hst
    · exact h'.1
  | cleared _ hno _ =>
    exact absurd ⟨hst, by simp [hsid], by simp [hcid]⟩ (hno r ho.symm)
  | @granted _ r' k' hg hfree hr =>
    have hkk : k' = k := by
      rcases hkeep with hfresh | hsame
      · rcases hfree r ho.symm with ha | hs | how
        · rw [hst] at ha
          cases ha
        · rw [hfresh] at hs
          cases hs
        · exact SessionRow.heldBy_owner hheld how
      · exact hsame k' hg
    subst hkk
    exact .inl ⟨r', rfl, hr⟩
  | confirmed _ _ _ =>
    cases ho
    exact .inl ⟨r, rfl, hst, hsid, hcid⟩
  | @released _ r' k' _ hu how _ =>
    cases ho
    have hkk : k' = k := SessionRow.heldBy_owner hheld how
    exact .inr (hkk ▸ hu)

/-- Who holds which session, as the connections are told: an operation hands the session over, and a connection
loses it by giving it up or when its stale session is handed to another. -/
def holdStep (threshold now : Int) (db : GameDb) (op : DbOp) (H : String → Connection → Prop) (u : String)
    (k : Connection) :
    Prop :=
  op.grants threshold now db u = some k ∨
    H u k ∧ op.givesUp now db u ≠ some k ∧
      ¬ ∃ k' r, op.grants threshold now db u = some k' ∧ db.sessions u = some r ∧ r.staleAt now threshold

/-- The holders after a run, `H` before it. -/
def Holds (threshold : Int) : GameDb → (String → Connection → Prop) → List (Int × DbOp) → String → Connection → Prop
  | _, H, [] => H
  | db, H, (now, op) :: ops => Holds threshold (op.exec threshold now db) (holdStep threshold now db op H) ops

/-- Whoever is told so owns the row, and every id belongs to one server. -/
structure LeaseOk (serverOf : String → String) (db : GameDb) (H : String → Connection → Prop) : Prop where
  coupled : ∀ u, ∀ r ∈ db.sessions u, r.Coupled
  server : ∀ u, ∀ r ∈ db.sessions u, ∀ c, r.connectionId = some c → r.serverId = some (serverOf c)
  held : ∀ u k, H u k → ∃ r, db.sessions u = some r ∧ r.heldBy k

section
variable {serverOf : String → String} {threshold : Int}

theorem DbOp.grants_connection {now : Int} {db : GameDb} {op : DbOp} {u : String} {k : Connection}
    (h : op.grants threshold now db u = some k) : op.connection = some k := by
  cases op with
  | save fault s => cases h
  | commit fault kind u' k' s => cases h
  | session op =>
    cases op with
    | acquireSession u' k' =>
      simp only [DbOp.grants] at h
      split at h
      · split at h
        · exact h
        · cases h
      · cases h
    | resumeSessionWithToken u' token k' ttl ip =>
      simp only [DbOp.grants] at h
      split at h
      · exact h
      · cases h
    | setSessionLoginToken => cases h
    | validateLoginToken => cases h
    | markSessionStale => cases h
    | releaseSession => cases h
    | updateSessionHeartbeat => cases h

theorem DbOp.givesUp_connection {now : Int} {db : GameDb} {op : DbOp} {u : String} {k : Connection}
    (h : op.givesUp now db u = some k) : op.connection = some k := by
  cases op with
  | save fault s => cases h
  | commit fault kind u' k' s =>
    simp only [DbOp.givesUp] at h
    split at h
    · split at h
      · exact h
      · cases h
    · cases h
  | session op =>
    cases op with
    | releaseSession u' k' =>
      simp only [DbOp.givesUp] at h
      split at h
      · exact h
      · cases h
    | acquireSession => cases h
    | resumeSessionWithToken => cases h
    | setSessionLoginToken => cases h
    | validateLoginToken => cases h
    | markSessionStale => cases h
    | updateSessionHeartbeat => cases h

theorem RowStep.server {now : Int} {db : GameDb} {op : DbOp} {u : String} {o o' : Option SessionRow}
    (h : RowStep threshold now db op u o o')
    (hconn : ∀ k, op.connection = some k → k.serverId = serverOf k.connectionId)
    (ho : ∀ r ∈ o, ∀ c, r.connectionId = some c → r.serverId = some (serverOf c)) :
    ∀ r ∈ o', ∀ c, r.connectionId = some c → r.serverId = some (serverOf c) := by
  cases h with
  | kept _ => exact ho
  | touched _ hs hc _ =>
    rintro r ⟨⟩ c hcid
    rw [hs]
    exact ho _ rfl c (hc ▸ hcid)
  | cleared _ _ hr =>
    rintro r ⟨⟩ c hcid
    rw [hr.2.2] at hcid
    cases hcid
  | granted hg _ hr =>
    rintro r ⟨⟩ c hcid
    rw [hr.2.2] at hcid
    cases hcid
    rw [hr.2.1, hconn _ (DbOp.grants_connection hg)]
  | confirmed _ _ _ => exact ho
  | released _ _ _ hr =>
    rintro r ⟨⟩ c hcid
    rw [hr.2.2] at hcid
    cases hcid

/-- One operation keeps the leases right. -/
theorem LeaseOk.step {db : GameDb} {H : String → Connection → Prop} (hok : LeaseOk serverOf db H) (now : Int)
    {op : DbOp} (hconn : ∀ k, op.connection = some k → k.serverId = serverOf k.connectionId) :
    LeaseOk serverOf (op.exec threshold now db) (holdStep threshold now db op H) := by
  refine ⟨fun u => (DbOp.exec_rowStep threshold now db u op).coupled (hok.coupled u),
    fun u => (DbOp.exec_rowStep threshold now db u op).server hconn (hok.server u), ?_⟩
  intro u k hk
  have hstep := DbOp.exec_rowStep threshold now db u op
  have hserver := hok.server u
  rcases hk with hg | ⟨hH, hgive, htaken⟩
  · -- the connection has just been told so
    generalize hb : db.sessions u = o at hstep hserver
    generalize ha : (op.exec threshold now db).sessions u = o' at hstep
    cases hstep with
    | kept _ hg' => rw [hg'] at hg; cases hg
    | touched hg' _ _ _ => rw [hg'] at hg; cases hg
    | cleared hg' _ _ => rw [hg'] at hg; cases hg
    | released hg' _ _ _ => rw [hg'] at hg; cases hg
    | granted hg' _ hr =>
      rw [hg'] at hg
      cases hg
      exact ⟨_, rfl, hr⟩
    | confirmed hg' hc hst =>
      rw [hg'] at hg
      cases hg
      refine ⟨_, rfl, hst, ?_, hc⟩
      rw [hserver _ rfl _ hc, hconn k (DbOp.grants_connection hg')]
  · obtain ⟨r, hr, hheld⟩ := hok.held u k hH
    rw [hr] at hstep
    have hkeep : r.staleAt now threshold = false ∨ ∀ k', op.grants threshold now db u = some k' → k' = k := by
      cases hstale : r.staleAt now threshold with
      | false => exact .inl rfl
      | true => exact .inr fun k' hg' => absurd ⟨k', r, hg', hr, hstale⟩ htaken
    rcases hstep.heldBy hheld hkeep with h | h
    · exact h
    · exact absurd h hgive

theorem LeaseOk.run : ∀ {ops : List (Int × DbOp)} {db : GameDb} {H : String → Connection → Prop},
    LeaseOk serverOf db H →
    (∀ o ∈ ops, ∀ k, o.2.connection = some k → k.serverId = serverOf k.connectionId) →
    LeaseOk serverOf (db.exec threshold ops) (Holds threshold db H ops)
  | [], _, _, hok, _ => hok
  | (now, op) :: ops, db, H, hok, hconn => by
    have hstep : LeaseOk serverOf (op.exec threshold now db) (holdStep threshold now db op H) :=
      hok.step now (hconn (now, op) List.mem_cons_self)
    have hrest := hstep.run fun o ho => hconn o (List.mem_cons_of_mem (now, op) ho)
    exact hrest

end

/-- Session exclusivity, for every run from an empty table and every clock reading: a row is `AUTHED` exactly when
it has no owner, the owner of a fresh `ACTIVE` row changes only when that owner gives it up, and no two
connections hold the session of one account. -/
theorem session_exclusivity (threshold : Int) (db : GameDb) (serverOf : String → String) (ops : List (Int × DbOp))
    (hconn : ∀ o ∈ ops, ∀ k, o.2.connection = some k → k.serverId = serverOf k.connectionId) :
    let start : GameDb := { db with sessions := fun _ => none }
    let after := start.exec threshold ops
    (∀ u r, after.sessions u = some r → (r.state = .authed ↔ r.serverId = none ∧ r.connectionId = none)) ∧
    (∀ u r k now op, after.sessions u = some r → r.heldBy k → r.staleAt now threshold = false →
      (∃ r', (DbOp.exec threshold now after op).sessions u = some r' ∧ r'.heldBy k) ∨ op.givesUp now after u = some k) ∧
    (∀ u k k', Holds threshold start (fun _ _ => False) ops u k → Holds threshold start (fun _ _ => False) ops u k' →
      k = k') := by
  intro start after
  have hok : LeaseOk serverOf after (Holds threshold start (fun _ _ => False) ops) :=
    LeaseOk.run ⟨by rintro u r ⟨⟩, by rintro u r ⟨⟩, by rintro u k ⟨⟩⟩ hconn
  refine ⟨fun u r hr => (hok.coupled u r hr).authed_iff, ?_, ?_⟩
  · intro u r k now op hr hk hfresh
    have hstep := DbOp.exec_rowStep threshold now after u op
    rw [hr] at hstep
    exact hstep.heldBy hk (.inl hfresh)
  · intro u k k' hk hk'
    obtain ⟨r, hr, hheld⟩ := hok.held u k hk
    obtain ⟨r', hr', hheld'⟩ := hok.held u k' hk'
    rw [hr] at hr'
    cases hr'
    exact SessionRow.heldBy_unique hheld hheld'

/-- Core 2 waits until the session of core 1 is stale. -/
def leaseOps : List (Int × DbOp) :=
  [(0, .session (.setSessionLoginToken "guest" 7)),
   (1, .session (.acquireSession "guest" ⟨"core-1", "a"⟩)),
   (2, .session (.acquireSession "guest" ⟨"core-2", "b"⟩)),
   (100000000, .session (.acquireSession "guest" ⟨"core-2", "b"⟩))]

theorem session_exclusivity_leaseOps :
    let start : GameDb := ⟨fun _ => none, fun _ => none, fun _ => none, fun _ => none⟩
    Holds 60 start (fun _ _ => False) leaseOps "guest" ⟨"core-2", "b"⟩ ∧
      ¬ Holds 60 start (fun _ _ => False) leaseOps "guest" ⟨"core-1", "a"⟩ := by
  intro start
  have hb : Holds 60 start (fun _ _ => False) leaseOps "guest" ⟨"core-2", "b"⟩ := .inl (by decide)
  refine ⟨hb, fun ha => ?_⟩
  have hconn : ∀ o ∈ leaseOps, ∀ k, o.2.connection = some k →
      k.serverId = (if k.connectionId = "a" then "core-1" else "core-2") := by
    simp [leaseOps, DbOp.connection]
  have :=
    (session_exclusivity 60 start (fun c => if c = "a" then "core-1" else "core-2") leaseOps hconn).2.2 _ _ _ ha hb
  revert this
  decide

end Zohar.Db
