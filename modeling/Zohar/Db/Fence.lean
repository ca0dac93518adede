/-
The runtime epoch as a fence. A write to a player's rows carries the epoch it was loaded with and reaches the
rows only while that epoch is still the stored one; an exit advances it. So an exit ends every writer that
shares its epoch, whatever the servers do and in whatever order.
-/
import Zohar.Db.Queries
import Mathlib.Tactic

namespace Zohar.Db

/-! ## What one operation writes -/

def GameDb.storedEpoch (db : GameDb) (id : PlayerId) : Option PlayerRuntimeEpoch :=
  (db.runtime id).map RuntimeRow.runtimeEpoch

def GameDb.storedPlaytime (db : GameDb) (id : PlayerId) : Option Int :=
  (db.progression id).map ProgressionRow.playtimeSecs

/-- The rows that a snapshot is saved to are there and still carry its epoch. -/
def RowsCurrent (db : GameDb) (s : PlayerSnapshot) : Prop :=
  db.storedEpoch s.playerId = some s.runtime.runtimeEpoch ∧ (db.progression s.playerId).isSome

instance (db : GameDb) (s : PlayerSnapshot) : Decidable (RowsCurrent db s) := inferInstanceAs (Decidable (_ ∧ _))

/-- Such a save is not refused. -/
theorem savePlayerSnapshot_not_stale {db : GameDb} {s : PlayerSnapshot} (h : RowsCurrent db s) (now : Int)
    (fault : Bool) :
    (savePlayerSnapshot now fault s db).1 ≠ .ok .staleOwner := by
  obtain ⟨he, hq⟩ := h
  obtain ⟨r, hr, he⟩ := Option.map_eq_some_iff.1 he
  obtain ⟨q, hq⟩ := Option.isSome_iff_exists.1 hq
  unfold savePlayerSnapshot saveStatement
  cases fault <;> cases hc : (q.write s).checks <;> cases ha : db.active s.playerId <;> simp [hr, he, hq, hc, ha]

/-- The snapshot that a save or an exit carries. -/
def DbOp.snapshot : DbOp → Option PlayerSnapshot
  | .save _ s => some s
  | .commit _ _ _ _ s => some s
  | .session _ => none

/-- The player and the epoch of an exit that succeeds. -/
def DbOp.committed (now : Int) (db : GameDb) : DbOp → Option (PlayerId × PlayerRuntimeEpoch)
  | .commit fault kind u k s =>
    match (commitPlayerExit now fault kind u k.serverId k.connectionId s db).1 with
    | .ok () => some (s.playerId, s.runtime.runtimeEpoch)
    | .error _ => none
  | _ => none

theorem DbOp.committed_eq_some {now : Int} {db : GameDb} {op : DbOp} {id : PlayerId} {e : PlayerRuntimeEpoch}
    (h : op.committed now db = some (id, e)) : ∃ fault kind u k s, op = .commit fault kind u k s ∧ s.playerId = id ∧
      s.runtime.runtimeEpoch = e ∧ (commitPlayerExit now fault kind u k.serverId k.connectionId s db).1 = .ok () := by
  cases op with
  | save fault s => cases h
  | session op => cases h
  | commit fault kind u k s =>
    simp only [DbOp.committed] at h
    split at h
    · rename_i hok
      cases h
      exact ⟨fault, kind, u, k, s, rfl, rfl, rfl, hok⟩
    · cases h

/-- The rows of one player before and after a step: kept, or written by a snapshot that carries the stored epoch. -/
structure Writes (db db' : GameDb) (id : PlayerId) (s : PlayerSnapshot) : Prop where
  player : s.playerId = id
  stored : db.storedEpoch id = some s.runtime.runtimeEpoch
  epoch : db'.storedEpoch id = some s.runtime.runtimeEpoch ∨
    db'.storedEpoch id = some ⟨s.runtime.runtimeEpoch.raw + 1⟩
  playtime : (db.progression id = none ∧ db'.progression id = none) ∨
    ∃ q, db.progression id = some q ∧ db'.progression id = some (q.write s)

theorem savePlayerSnapshot_writes (now : Int) (fault : Bool) (s : PlayerSnapshot) (db : GameDb) (id : PlayerId) :
    ((savePlayerSnapshot now fault s db).2.runtime id = db.runtime id ∧
        (savePlayerSnapshot now fault s db).2.progression id = db.progression id) ∨
      Writes db (savePlayerSnapshot now fault s db).2 id s := by
  rcases savePlayerSnapshot_cases now fault s db with h | ⟨r, hr, he, ⟨hq, h⟩ | ⟨q, hq, _, h⟩⟩
  · rw [h]
    exact .inl ⟨rfl, rfl⟩
  all_goals
    rw [h]
    by_cases hid : id = s.playerId
    · subst hid
      refine .inr ⟨rfl, by simp [GameDb.storedEpoch, hr, he],
        .inl (by simp [GameDb.storedEpoch, RuntimeRow.write, he]), ?_⟩
      simp [hq]
    · exact .inl (by simp [hid])

/-- A save moves no epoch and makes no row. -/
theorem savePlayerSnapshot_keeps (now : Int) (fault : Bool) (s : PlayerSnapshot) (db : GameDb) (id : PlayerId) :
    (savePlayerSnapshot now fault s db).2.storedEpoch id = db.storedEpoch id ∧
      ((savePlayerSnapshot now fault s db).2.progression id).isSome = (db.progression id).isSome := by
  rcases savePlayerSnapshot_cases now fault s db with h | ⟨r, hr, he, ⟨hq, h⟩ | ⟨q, hq, _, h⟩⟩
  · rw [h]
    exact ⟨rfl, rfl⟩
  all_goals
    rw [h]
    by_cases hid : id = s.playerId
    · subst hid
      simp [GameDb.storedEpoch, RuntimeRow.write, hr, hq]
    · simp [GameDb.storedEpoch, hid]

theorem commitPlayerExit_writes {now : Int} {fault : Option ExitStage} {kind : PlayerExitKind} {u sid cid : String}
    {s : PlayerSnapshot} {db : GameDb} (h : (commitPlayerExit now fault kind u sid cid s db).1 = .ok ())
    (id : PlayerId) :
    ((commitPlayerExit now fault kind u sid cid s db).2.runtime id = db.runtime id ∧
        (commitPlayerExit now fault kind u sid cid s db).2.progression id = db.progression id) ∨
      Writes db (commitPlayerExit now fault kind u sid cid s db).2 id s := by
  obtain ⟨_, r, q, row, hr, he, hq, _, _, h2⟩ := commitPlayerExit_ok h
  rw [h2]
  by_cases hid : id = s.playerId
  · subst hid
    refine .inr ⟨rfl, by simp [GameDb.storedEpoch, hr, he], .inr (by simp [GameDb.storedEpoch, he]),
      .inr ⟨q, hq, by simp⟩⟩
  · exact .inl (by simp [hid])

/-- The step lemma: an operation keeps a player's rows or writes them under the stored epoch. -/
theorem DbOp.exec_writes (threshold now : Int) (db : GameDb) (op : DbOp) (id : PlayerId) :
    ((op.exec threshold now db).runtime id = db.runtime id ∧ (op.exec threshold now db).progression id =
      db.progression id) ∨
      ∃ s, op.snapshot = some s ∧ Writes db (op.exec threshold now db) id s := by
  cases op with
  | save fault s =>
    rcases savePlayerSnapshot_writes now fault s db id with h | h
    · exact .inl h
    · exact .inr ⟨s, rfl, h⟩
  | commit fault kind u k s =>
    cases hok : (commitPlayerExit now fault kind u k.serverId k.connectionId s db).1 with
    | error e =>
      have hkeep : (DbOp.commit fault kind u k s).exec threshold now db = db := commitPlayerExit_error hok
      rw [hkeep]
      exact .inl ⟨rfl, rfl⟩
    | ok _ =>
      rcases commitPlayerExit_writes hok id with h | h
      · exact .inl h
      · exact .inr ⟨s, rfl, h⟩
  | session op =>
    obtain ⟨_, hr, hp⟩ := op.exec_players threshold now db
    exact .inl ⟨congrFun hr id, congrFun hp id⟩

/-- An exit that succeeds leaves the next epoch behind. -/
theorem storedEpoch_of_committed (threshold : Int) {now : Int} {db : GameDb} {op : DbOp} {id : PlayerId}
    {e : PlayerRuntimeEpoch} (h : op.committed now db = some (id, e)) :
    db.storedEpoch id = some e ∧ (op.exec threshold now db).storedEpoch id = some ⟨e.raw + 1⟩ := by
  obtain ⟨fault, kind, u, k, s, rfl, rfl, rfl, hok⟩ := DbOp.committed_eq_some h
  obtain ⟨_, r, q, row, hr, he, hq, _, _, h2⟩ := commitPlayerExit_ok hok
  refine ⟨by simp [GameDb.storedEpoch, hr, he], ?_⟩
  simp only [DbOp.exec, h2, GameDb.storedEpoch]
  simp [he]

/-! ## Runs -/

/-- A player's rows are neither created nor removed, and neither the epoch nor the playtime goes back. -/
structure Advances (db db' : GameDb) (id : PlayerId) : Prop where
  epoch : (db.storedEpoch id = none ∧ db'.storedEpoch id = none) ∨
    ∃ e e', db.storedEpoch id = some e ∧ db'.storedEpoch id = some e' ∧ e.raw ≤ e'.raw
  playtime : (db.storedPlaytime id = none ∧ db'.storedPlaytime id = none) ∨
    ∃ t t', db.storedPlaytime id = some t ∧ db'.storedPlaytime id = some t' ∧ t ≤ t'

theorem Advances.of_eq {db db' : GameDb} {id : PlayerId} (hr : db'.runtime id = db.runtime id)
    (hp : db'.progression id = db.progression id) : Advances db db' id := by
  constructor
  · simp only [GameDb.storedEpoch, hr]
    cases db.runtime id with
    | none => exact .inl ⟨rfl, rfl⟩
    | some r => exact .inr ⟨_, _, rfl, rfl, le_refl _⟩
  · simp only [GameDb.storedPlaytime, hp]
    cases db.progression id with
    | none => exact .inl ⟨rfl, rfl⟩
    | some q => exact .inr ⟨_, _, rfl, rfl, le_refl _⟩

theorem Advances.trans {a b c : GameDb} {id : PlayerId} (h1 : Advances a b id) (h2 : Advances b c id) :
    Advances a c id := by
  constructor
  · rcases h1.epoch with ⟨ha, hb⟩ | ⟨e, e', ha, hb, hle⟩ <;> rcases h2.epoch with ⟨hb', hc⟩ | ⟨f, f', hb', hc, hle'⟩
    · exact .inl ⟨ha, hc⟩
    · rw [hb] at hb'; cases hb'
    · rw [hb] at hb'; cases hb'
    · rw [hb] at hb'; cases hb'
      exact .inr ⟨e, f', ha, hc, le_trans hle hle'⟩
  · rcases h1.playtime with ⟨ha, hb⟩ | ⟨e, e', ha, hb, hle⟩ <;> rcases h2.playtime
      with ⟨hb', hc⟩ | ⟨f, f', hb', hc, hle'⟩
    · exact .inl ⟨ha, hc⟩
    · rw [hb] at hb'; cases hb'
    · rw [hb] at hb'; cases hb'
    · rw [hb] at hb'; cases hb'
      exact .inr ⟨e, f', ha, hc, le_trans hle hle'⟩

theorem Writes.advances {db db' : GameDb} {id : PlayerId} {s : PlayerSnapshot} (h : Writes db db' id s) :
    Advances db db' id := by
  constructor
  · rcases h.epoch with he | he
    · exact .inr ⟨_, _, h.stored, he, le_refl _⟩
    · exact .inr ⟨_, _, h.stored, he, by dsimp only; omega⟩
  · rcases h.playtime with ⟨hq, hq'⟩ | ⟨q, hq, hq'⟩
    · exact .inl ⟨by simp [GameDb.storedPlaytime, hq], by simp [GameDb.storedPlaytime, hq']⟩
    · refine .inr ⟨q.playtimeSecs, (q.write s).playtimeSecs, by simp [GameDb.storedPlaytime, hq],
        by simp [GameDb.storedPlaytime, hq'], le_max_left _ _⟩

theorem DbOp.exec_advances (threshold now : Int) (db : GameDb) (op : DbOp) (id : PlayerId) :
    Advances db (op.exec threshold now db) id := by
  rcases op.exec_writes threshold now db id with ⟨hr, hp⟩ | ⟨s, _, h⟩
  · exact .of_eq hr hp
  · exact h.advances

theorem exec_advances (threshold : Int) (id : PlayerId) : ∀ (ops : List (Int × DbOp)) (db : GameDb),
    Advances db (db.exec threshold ops) id
  | [], _ => .of_eq rfl rfl
  | (now, op) :: ops, db =>
    (op.exec_advances threshold now db id).trans (exec_advances threshold id ops (op.exec threshold now db))

/-- The player and epoch of every exit that succeeds in a run. -/
def committed (threshold : Int) : GameDb → List (Int × DbOp) → List (PlayerId × PlayerRuntimeEpoch)
  | _, [] => []
  | db, (now, op) :: ops => (op.committed now db).toList ++ committed threshold (op.exec threshold now db) ops

theorem storedEpoch_le_of_mem_committed {threshold : Int} {id : PlayerId} {e : PlayerRuntimeEpoch} :
    ∀ {ops : List (Int × DbOp)} {db : GameDb}, (id, e) ∈ committed threshold db ops →
      ∃ e₀, db.storedEpoch id = some e₀ ∧ e₀.raw ≤ e.raw
  | (now, op) :: ops, db, h => by
    rcases List.mem_append.1 h with h | h
    · exact ⟨e, (storedEpoch_of_committed threshold (Option.mem_toList.1 h)).1, le_refl _⟩
    · obtain ⟨e₁, h₁, hle⟩ := storedEpoch_le_of_mem_committed h
      rcases (op.exec_advances threshold now db id).epoch with ⟨_, hn⟩ | ⟨a, b, ha, hb, hab⟩
      · rw [hn] at h₁
        cases h₁
      · rw [hb] at h₁
        cases h₁
        exact ⟨a, ha, le_trans hab hle⟩

theorem committed_nodup (threshold : Int) : ∀ (ops : List (Int × DbOp)) (db : GameDb),
    (committed threshold db ops).Nodup
  | [], _ => List.nodup_nil
  | (now, op) :: ops, db => by
    have ih := committed_nodup threshold ops (op.exec threshold now db)
    simp only [committed]
    cases hc : op.committed now db with
    | none => simpa using ih
    | some c =>
      obtain ⟨id, e⟩ := c
      have hnot : (id, e) ∉ committed threshold (op.exec threshold now db) ops := by
        intro hmem
        obtain ⟨e₀, h₀, hle⟩ := storedEpoch_le_of_mem_committed hmem
        rw [(storedEpoch_of_committed threshold hc).2] at h₀
        cases h₀
        dsimp only at hle
        omega
      simpa using ⟨hnot, ih⟩

/-- Once the stored epoch has passed a snapshot's, nothing that carries the snapshot reaches the player's rows. -/
theorem rows_kept_of_lt {threshold now : Int} {db : GameDb} {op : DbOp} {s : PlayerSnapshot} {e : PlayerRuntimeEpoch}
    (hs : op.snapshot = some s) (he : db.storedEpoch s.playerId = some e) (hlt : s.runtime.runtimeEpoch.raw < e.raw) :
    (op.exec threshold now db).runtime s.playerId = db.runtime s.playerId ∧
      (op.exec threshold now db).progression s.playerId = db.progression s.playerId := by
  rcases op.exec_writes threshold now db s.playerId with h | ⟨s', hs', h⟩
  · exact h
  · rw [hs] at hs'
    cases hs'
    have := h.stored
    rw [he] at this
    cases this
    omega

/-- The fence. After an exit with epoch `e`, nothing that carries an epoch up to `e` reaches the player's rows;
every epoch is committed once; neither the stored epoch nor the stored playtime goes back; and an exit that
fails changes nothing. -/
theorem runtime_epoch_fence (threshold : Int) (db : GameDb) :
    (∀ (now : Int) (op : DbOp) (id : PlayerId) (e : PlayerRuntimeEpoch), op.committed now db = some (id, e) →
      ∀ (later : List (Int × DbOp)) (now' : Int) (op' : DbOp) (s : PlayerSnapshot), op'.snapshot = some s →
        s.playerId = id → s.runtime.runtimeEpoch.raw ≤ e.raw →
        let db' := (op.exec threshold now db).exec threshold later
        (op'.exec threshold now' db').runtime id = db'.runtime id ∧
          (op'.exec threshold now' db').progression id = db'.progression id) ∧
    (∀ ops : List (Int × DbOp), (committed threshold db ops).Nodup) ∧
    (∀ (ops : List (Int × DbOp)) (id : PlayerId), Advances db (db.exec threshold ops) id) ∧
    (∀ (now : Int) (fault : Option ExitStage) (kind : PlayerExitKind) (u : String) (k : Connection) (s : PlayerSnapshot)
      (e : DbError), (commitPlayerExit now fault kind u k.serverId k.connectionId s db).1 = .error e →
        (DbOp.commit fault kind u k s).exec threshold now db = db) := by
  refine ⟨?_, fun ops => committed_nodup threshold ops db, fun ops id => exec_advances threshold id ops db,
    fun now fault kind u k s e h => commitPlayerExit_error h⟩
  intro now op id e hc later now' op' s hs hid hle
  subst hid
  have hnext := (storedEpoch_of_committed threshold hc).2
  rcases (exec_advances threshold s.playerId later (op.exec threshold now db)).epoch with ⟨hn, _⟩ | ⟨a, b, ha, hb, hab⟩
  · rw [hn] at hnext
    cases hnext
  · rw [ha] at hnext
    cases hnext
    exact rows_kept_of_lt hs hb (by dsimp only at hab; omega)

-- an exit of the seeded player with the seeded epoch succeeds
example :
    let db : GameDb :=
      { players := fun _ => some ⟨"admin", none⟩
        runtime := fun _ => some ⟨some "metin2_map_c1", none, none, none, none, none, .initial, 0⟩
        progression := fun _ => some ⟨99, 0, 0, 0, 0, 0, 0, 0⟩
        sessions := fun _ => some ⟨some "core-1", some "conn-1", 0, none, none, none, .active⟩ }
    let s : PlayerSnapshot :=
      ⟨⟨⟨1⟩, .initial, "metin2_map_c1", ⟨0, 0⟩, ⟨0⟩, none, none, none⟩, ⟨99, 5, ⟨0, 0, 0, 0⟩, 0⟩⟩
    (DbOp.commit none .handoff "admin" ⟨"core-1", "conn-1"⟩ s).committed 7 db = some (⟨1⟩, .initial) := by decide

end Zohar.Db
