/-
Servers on one database. A connection keeps the epoch that `run_loading` read for its player and every write on
its behalf carries it. A login may take over the session of a connection that went stale; the takeover moves the
session row and leaves the epoch where it is, so the old owner is fenced off from the rows only if an exit has
advanced the epoch since it loaded.
-/
import Zohar.Db.Fence
import Zohar.Db.Lease
import Zohar.Lib.Run

namespace Zohar.Db

open Zohar.Lib

/-! ## Connections -/

structure Servers where
  db : GameDb
  /-- The epochs that a connection has loaded for a player. A write that waits in a queue may carry an old one. -/
  loaded : List (Connection × PlayerId × PlayerRuntimeEpoch)
  /-- Account, old owner and new owner of every takeover. -/
  takenOver : List (String × Connection × Connection)
  /-- The connections that lost their session to a server that has read the player's state since. -/
  replaced : List (Connection × PlayerId)

inductive ServerEvent where
  | session (now : Int) (op : SessionOp)
  | load (username : String) (k : Connection) (id : PlayerId)
  | save (now : Int) (fault : Bool) (k : Connection) (s : PlayerSnapshot)
  | commit (now : Int) (fault : Option ExitStage) (exitKind : PlayerExitKind) (username : String) (k : Connection)
      (s : PlayerSnapshot)

/-- The epoch that `run_loading` gives a `LoadedPlayer`: the player has to be the account's and active. -/
def GameDb.loadEpoch (db : GameDb) (username : String) (id : PlayerId) : Option PlayerRuntimeEpoch :=
  match db.players id with
  | some p =>
    if p.username = username ∧ p.deletedAt = none ∧ (db.progression id).isSome then
      some ((findRuntimeEpoch db id).getD .initial)
    else none
  | none => none

/-- The connection whose stale session an operation hands to another. -/
def takeover (threshold now : Int) (db : GameDb) (op : SessionOp) (u : String) : Option (Connection × Connection) :=
  match (DbOp.session op).grants threshold now db u, db.sessions u with
  | some b, some r =>
    match r.serverId, r.connectionId with
    | some sid, some cid =>
      if r.state = .active ∧ r.staleAt now threshold ∧ (⟨sid, cid⟩ : Connection) ≠ b then some (⟨sid, cid⟩, b) else none
    | _, _ => none
  | _, _ => none

/-- The account an operation is about. -/
def SessionOp.username : SessionOp → String
  | .setSessionLoginToken u _ => u
  | .acquireSession u _ => u
  | .resumeSessionWithToken u _ _ _ _ => u
  | .validateLoginToken u _ _ _ => u
  | .markSessionStale u _ => u
  | .releaseSession u _ => u
  | .updateSessionHeartbeat u => u

/-- The connections whose stale session of `u` went to the server of `k`, by whichever of its connections. -/
def Servers.displacedBy (w : Servers) (u : String) (k : Connection) : List Connection :=
  (w.takenOver.filter fun t => t.1 = u ∧ t.2.2.serverId = k.serverId ∧ t.2.1 ≠ k).map (·.2.1)

theorem Servers.ne_of_mem_displacedBy {w : Servers} {u : String} {k a : Connection} (h : a ∈ w.displacedBy u k) :
    a ≠ k := by
  obtain ⟨t, ht, rfl⟩ := List.mem_map.1 h
  have hcond := (List.mem_filter.1 ht).2
  simp only [decide_eq_true_eq] at hcond
  exact hcond.2.2

def serverStep (threshold : Int) (w : Servers) : ServerEvent → Option Servers
  | .session now op =>
    some { w with
      db := op.exec threshold now w.db
      takenOver := ((takeover threshold now w.db op op.username).map fun p =>
        (op.username, p.1, p.2)).toList ++ w.takenOver }
  | .load u k id =>
    (w.db.loadEpoch u id).map fun e =>
      { w with
        loaded := (k, id, e) :: w.loaded
        replaced := (w.displacedBy u k).map (·, id) ++ w.replaced }
  | .save now fault k s =>
    if (k, s.playerId, s.runtime.runtimeEpoch) ∈ w.loaded then
      some { w with db := (savePlayerSnapshot now fault s w.db).2 }
    else none
  | .commit now fault kind u k s =>
    if (k, s.playerId, s.runtime.runtimeEpoch) ∈ w.loaded then
      some { w with db := (commitPlayerExit now fault kind u k.serverId k.connectionId s w.db).2 }
    else none

def Servers.start (db : GameDb) : Servers := ⟨db, [], [], []⟩

/-- No event but a load touches the loaded epochs, and every event lets the rows only advance. -/
theorem serverStep_spec {threshold : Int} {w w' : Servers} {ev : ServerEvent}
    (h : serverStep threshold w ev = some w') :
    (∃ u k id e, ev = .load u k id ∧ w.db.loadEpoch u id = some e ∧ w'.db = w.db ∧ w'.loaded = (k, id, e) :: w.loaded ∧
      w'.replaced = (w.displacedBy u k).map (·, id) ++ w.replaced) ∨
    (w'.loaded = w.loaded ∧ w'.replaced = w.replaced ∧ ∀ id, Advances w.db w'.db id) := by
  cases ev with
  | session now op =>
    cases h
    exact .inr ⟨rfl, rfl, (DbOp.session op).exec_advances threshold now w.db⟩
  | load u k id =>
    obtain ⟨e, he, rfl⟩ := Option.map_eq_some_iff.1 h
    exact .inl ⟨u, k, id, e, rfl, he, rfl, rfl, rfl⟩
  | save now fault k s =>
    simp only [serverStep] at h
    split at h
    · cases h
      exact .inr ⟨rfl, rfl, (DbOp.save fault s).exec_advances threshold now w.db⟩
    · cases h
  | commit now fault kind u k s =>
    simp only [serverStep] at h
    split at h
    · cases h
      exact .inr ⟨rfl, rfl, (DbOp.commit fault kind u k s).exec_advances threshold now w.db⟩
    · cases h

theorem loadEpoch_eq {db : GameDb} {u : String} {id : PlayerId} {e e₀ : PlayerRuntimeEpoch}
    (h : db.loadEpoch u id = some e) (h₀ : db.storedEpoch id = some e₀) : e = e₀ := by
  unfold GameDb.loadEpoch at h
  split at h
  · rename_i p hp
    split at h
    · rename_i hc
      cases h
      have ha : db.active id = true := by simp [GameDb.active, hp, hc.2.1]
      have hf : findRuntimeEpoch db id = some e₀ := by
        unfold findRuntimeEpoch
        rw [if_pos ha]
        exact h₀
      rw [hf, Option.getD_some]
    · cases h
  · cases h

/-! ## The fence after a takeover -/

/-- A load that reads the player after its server took a session over finds the old owner's epochs already passed,
whichever of the server's connections took over and whichever loads, and a connection that was replaced does not load
the player again. -/
def EpochMovedOn (w : Servers) : ServerEvent → Prop
  | .load u k id =>
    (∀ a ∈ w.displacedBy u k, ∀ l ∈ w.loaded, l.1 = a → l.2.1 = id → w.db.storedEpoch id ≠ some l.2.2) ∧
      (k, id) ∉ w.replaced
  | _ => True

instance (w : Servers) (ev : ServerEvent) : Decidable (EpochMovedOn w ev) := by
  cases ev <;> unfold EpochMovedOn <;> infer_instance

/-- Loaded epochs are not ahead of the stored one, and those of a replaced connection are behind it. -/
structure FenceOk (w : Servers) : Prop where
  loaded : ∀ k id e, (k, id, e) ∈ w.loaded → ∀ e₀, w.db.storedEpoch id = some e₀ → e.raw ≤ e₀.raw
  replaced : ∀ k id e, (k, id, e) ∈ w.loaded → (k, id) ∈ w.replaced → ∀ e₀, w.db.storedEpoch id = some e₀ →
    e.raw < e₀.raw

theorem Advances.le {db db' : GameDb} {id : PlayerId} (h : Advances db db' id) {e' : PlayerRuntimeEpoch}
    (he : db'.storedEpoch id = some e') : ∃ e, db.storedEpoch id = some e ∧ e.raw ≤ e'.raw := by
  rcases h.epoch with ⟨_, hn⟩ | ⟨a, b, ha, hb, hab⟩
  · rw [hn] at he
    cases he
  · rw [hb] at he
    cases he
    exact ⟨a, ha, hab⟩

theorem serverStep_fenceOk {threshold : Int} (w : Servers) (ev : ServerEvent) (w' : Servers) (hw : FenceOk w)
    (hc : EpochMovedOn w ev) (h : serverStep threshold w ev = some w') : FenceOk w' := by
  rcases serverStep_spec h with ⟨u, k, id, e, rfl, he, hdb, hl, hr⟩ | ⟨hl, hr, hadv⟩
  · obtain ⟨hmoved, hself⟩ := hc
    constructor
    · intro a p f hf f₀ hf₀
      rw [hdb] at hf₀
      rw [hl] at hf
      rcases List.mem_cons.1 hf with heq | hf
      · cases heq
        rw [loadEpoch_eq he hf₀]
      · exact hw.loaded a p f hf f₀ hf₀
    · intro a p f hf hrep f₀ hf₀
      rw [hdb] at hf₀
      rw [hl] at hf
      rw [hr] at hrep
      rcases List.mem_append.1 hrep with hrep | hrep
      · -- the connection has just been replaced by this load
        obtain ⟨_, hmem, heq⟩ := List.mem_map.1 hrep
        cases heq
        rcases List.mem_cons.1 hf with heq | hf
        · rw [Prod.mk.injEq] at heq
          exact absurd heq.1 (Servers.ne_of_mem_displacedBy hmem)
        · have hne := hmoved _ hmem _ hf rfl rfl
          have hle := hw.loaded a id f hf f₀ hf₀
          rcases lt_or_eq_of_le hle with hlt | heq
          · exact hlt
          · exfalso
            apply hne
            rw [hf₀]
            cases f
            cases f₀
            simpa using heq.symm
      · rcases List.mem_cons.1 hf with heq | hf
        · cases heq
          exact absurd hrep hself
        · exact hw.replaced a p f hf hrep f₀ hf₀
  · constructor
    · intro a p f hf f₀ hf₀
      rw [hl] at hf
      obtain ⟨f₁, hf₁, hle⟩ := (hadv p).le hf₀
      exact le_trans (hw.loaded a p f hf f₁ hf₁) hle
    · intro a p f hf hrep f₀ hf₀
      rw [hl] at hf
      rw [hr] at hrep
      obtain ⟨f₁, hf₁, hle⟩ := (hadv p).le hf₀
      exact lt_of_lt_of_le (hw.replaced a p f hf hrep f₁ hf₁) hle

/-- In a run in which the epoch has moved on at every load that follows a takeover, no save on behalf of the old
owner reaches the player's rows. -/
theorem save_after_takeover {threshold : Int} {db : GameDb} {events : List ServerEvent} {w w' : Servers} {now : Int}
    {fault : Bool} {k : Connection} {s : PlayerSnapshot}
    (hmeets : Meets (serverStep threshold) EpochMovedOn (.start db) events)
    (hrun : run (serverStep threshold) (.start db) events = some w) (hrep : (k, s.playerId) ∈ w.replaced)
    (hsave : serverStep threshold w (.save now fault k s) = some w') :
    w'.db.runtime s.playerId = w.db.runtime s.playerId ∧ w'.db.progression s.playerId =
      w.db.progression s.playerId := by
  have hok : FenceOk w := run_inv_of_meets serverStep_fenceOk
    ⟨fun _ _ _ h => absurd h List.not_mem_nil, fun _ _ _ h => absurd h List.not_mem_nil⟩ hmeets hrun
  simp only [serverStep] at hsave
  split at hsave
  · rename_i hmem
    cases hsave
    rcases savePlayerSnapshot_writes now fault s w.db s.playerId with h | h
    · exact h
    · exact absurd (hok.replaced _ _ _ hmem hrep _ h.stored) (lt_irrefl _)
  · cases hsave

/-- A save that finds its epoch and passes the checks is written. -/
theorem savePlayerSnapshot_runtime {now : Int} {s : PlayerSnapshot} {db : GameDb} {r : RuntimeRow}
    (hr : db.runtime s.playerId = some r) (he : r.runtimeEpoch = s.runtime.runtimeEpoch)
    (hc : ∀ q ∈ db.progression s.playerId, (q.write s).checks) :
    (savePlayerSnapshot now false s db).2.runtime s.playerId = some (r.write now s.runtime) := by
  simp only [savePlayerSnapshot, saveStatement, hr, he]
  cases hq : db.progression s.playerId with
  | none => cases db.active s.playerId <;> simp
  | some q => cases db.active s.playerId <;> simp [hc q hq]

/-- A snapshot of a new player, which passes the checks of every row. -/
def freshSnapshot (id : PlayerId) (e : PlayerRuntimeEpoch) : PlayerSnapshot :=
  ⟨⟨id, e, "metin2_map_c1", ⟨0, 0⟩, ⟨0⟩, none, none, none⟩, ⟨1, 0, ⟨0, 0, 0, 0⟩, 0⟩⟩

theorem freshSnapshot_checks (id : PlayerId) (e : PlayerRuntimeEpoch) (q : ProgressionRow) :
    (q.write (freshSnapshot id e)).checks := by
  have hmax := le_max_right q.playtimeSecs (freshSnapshot id e).runtime.playtime.asSecsI64
  have hnonneg := (freshSnapshot id e).runtime.playtime.asSecsI64_nonneg
  have htime : 0 ≤ (q.write (freshSnapshot id e)).playtimeSecs := le_trans hnonneg hmax
  simp [ProgressionRow.checks, htime]
  simp [ProgressionRow.write, freshSnapshot]

/-- The condition is exact: a connection that has loaded the stored epoch can write the rows, whoever has the
session. -/
theorem save_changes_of_loaded {threshold : Int} {w : Servers} {k : Connection} {id : PlayerId} {e : PlayerRuntimeEpoch}
    (hl : (k, id, e) ∈ w.loaded) (he : w.db.storedEpoch id = some e) :
    ∃ now w', serverStep threshold w (.save now false k (freshSnapshot id e)) = some w' ∧
      w'.db.runtime id ≠ w.db.runtime id := by
  obtain ⟨r, hr, hre⟩ := Option.map_eq_some_iff.1 he
  refine ⟨r.updatedAt + 1, { w with db := (savePlayerSnapshot (r.updatedAt + 1) false (freshSnapshot id e) w.db).2 },
    if_pos hl, ?_⟩
  have hwritten : (savePlayerSnapshot (r.updatedAt + 1) false (freshSnapshot id e) w.db).2.runtime id =
      some (r.write (r.updatedAt + 1) (freshSnapshot id e).runtime) :=
    savePlayerSnapshot_runtime hr hre fun q _ => freshSnapshot_checks id e q
  intro heq
  rw [hr] at heq
  have htime := congrArg RuntimeRow.updatedAt (Option.some.inj (hwritten.symm.trans heq))
  simp [RuntimeRow.write] at htime

/-! ## The runs -/

/-- The seeded player, before anyone has logged in. -/
def seededDb : GameDb where
  players := fun _ => some ⟨"admin", none⟩
  runtime := fun _ => some ⟨some "metin2_map_c1", none, none, none, none, none, .initial, 0⟩
  progression := fun _ => some ⟨1, 0, 0, 0, 0, 0, 0, 0⟩
  sessions := fun _ => none

def connA : Connection := ⟨"core-1", "a"⟩

def connB : Connection := ⟨"core-2", "b"⟩

/-- A loads the player and falls silent; B logs in 100 s later, loads it and saves a level. -/
def takeoverEvents : List ServerEvent :=
  [.session 0 (.setSessionLoginToken "admin" 7),
   .session 1 (.resumeSessionWithToken "admin" 7 connA 3600 "10.0.0.1"),
   .load "admin" connA ⟨1⟩,
   .session 100000000 (.resumeSessionWithToken "admin" 7 connB 3600 "10.0.0.1"),
   .load "admin" connB ⟨1⟩,
   .save 100000001 false connB
     { freshSnapshot ⟨1⟩ .initial with progression := ⟨2, 0, ⟨0, 0, 0, 0⟩, 0⟩ }]

/-- The silent core's autosave then undoes the new owner's. -/
theorem save_after_takeover_lost :
    ∃ w w', run (serverStep 60) (.start seededDb) takeoverEvents = some w ∧
      ("admin", connA, connB) ∈ w.takenOver ∧ (connA, ⟨1⟩) ∈ w.replaced ∧
      serverStep 60 w (.save 100000002 false connA (freshSnapshot ⟨1⟩ .initial)) = some w' ∧
      (w.db.progression ⟨1⟩).map ProgressionRow.level = some 2 ∧
      (w'.db.progression ⟨1⟩).map ProgressionRow.level = some 1 := by
  refine ⟨_, _, rfl, ?_, ?_, rfl, ?_, ?_⟩ <;> decide

-- another connection of the server that took over may be the one that loads
example :
    let secondLogin : Connection := ⟨"core-2", "b2"⟩
    let events : List ServerEvent :=
      [.session 0 (.setSessionLoginToken "admin" 7),
       .session 1 (.resumeSessionWithToken "admin" 7 connA 3600 "10.0.0.1"),
       .load "admin" connA ⟨1⟩,
       .session 100000000 (.resumeSessionWithToken "admin" 7 connB 3600 "10.0.0.1"),
       .session 100000001 (.releaseSession "admin" connB),
       .session 100000002 (.resumeSessionWithToken "admin" 7 secondLogin 3600 "10.0.0.1")]
    (run (serverStep 60) (.start seededDb) events).map
      (fun w => (w.displacedBy "admin" secondLogin, decide (EpochMovedOn w (.load "admin" secondLogin ⟨1⟩)))) =
        some ([connA], false) := by decide

/-- A hands the player off, logs in again, and falls silent. -/
def handedOffEvents : List ServerEvent :=
  [.session 0 (.setSessionLoginToken "admin" 7),
   .session 1 (.resumeSessionWithToken "admin" 7 connA 3600 "10.0.0.1"),
   .load "admin" connA ⟨1⟩,
   .commit 2 none .handoff "admin" connA (freshSnapshot ⟨1⟩ .initial),
   .session 3 (.resumeSessionWithToken "admin" 7 connA 3600 "10.0.0.1"),
   .session 100000000 (.resumeSessionWithToken "admin" 7 connB 3600 "10.0.0.1"),
   .load "admin" connB ⟨1⟩]

theorem save_after_takeover_handedOff :
    ∃ w w', run (serverStep 60) (.start seededDb) handedOffEvents = some w ∧ (connA, ⟨1⟩) ∈ w.replaced ∧
      serverStep 60 w (.save 100000001 false connA (freshSnapshot ⟨1⟩ .initial)) = some w' ∧
      w'.db.progression ⟨1⟩ = w.db.progression ⟨1⟩ := by
  have hmeets : Meets (serverStep 60) EpochMovedOn (.start seededDb) handedOffEvents := by decide
  obtain ⟨w, w', hrun, hrep, hsave⟩ : ∃ w w', run (serverStep 60) (.start seededDb) handedOffEvents = some w ∧
      (connA, ⟨1⟩) ∈ w.replaced ∧
        serverStep 60 w (.save 100000001 false connA (freshSnapshot ⟨1⟩ .initial)) = some w' :=
    ⟨_, _, rfl, by decide, rfl⟩
  exact ⟨w, w', hrun, hrep, hsave, (save_after_takeover hmeets hrun hrep hsave).2⟩

end Zohar.Db
