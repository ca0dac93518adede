/-
How the database of the content is brought up to date. A schema migration is one transaction with the row that records
it; the files of private data are applied statement by statement, each behind a savepoint of its own, and what an engine
refuses is taken back and listed. A statement of private data is any SQL, and may end the transaction that its savepoint
opened or change the rows that record what was applied; the results on private data name it as a condition that it does
neither. From zohar-content/src/migrations: schema.rs and private_data.rs.
-/
import Zohar.Content.PrivateData
import Zohar.Lib.Txn

namespace Zohar.Content

open Zohar.Lib
open Zohar.Game (Text)

/-! ## The database -/

/-- A row of `_content_schema_migrations`. -/
structure SchemaRow where
  version : Int
  id : Text
  hash : Text
  deriving DecidableEq, Repr

/-- A row of `_content_data_migrations`. -/
structure DataRow where
  path : Text
  hash : Text
  rejectedCount : Nat
  deriving DecidableEq, Repr

/-- The tables of the content and the two tables of migrations, where there are such. -/
structure ContentDb (T : Type) where
  tables : T
  schemaMigrations : Option (List SchemaRow)
  dataMigrations : Option (List DataRow)
  deriving DecidableEq

/-- What a connection sees, and what it saw at each open savepoint. -/
abbrev View (T : Type) := ContentDb T × List (Option Text × ContentDb T)

/-- What SQLite makes of a script, with the text of the error that ended it, and the digest of a text. The scripts of
the schema are built in, and there is nothing in them but what changes the tables of the content; a statement of private
data may reach all that the connection sees. -/
structure Engine (T : Type) where
  rawSql : Text → T → Option Text × T
  rawStatement : Text → View T → Option Text × View T
  hashText : Text → Text

/-- The name of a file or directory, as the file system has it. -/
abbrev FileName := Net.Bytes

/-- The errors of building the database, with the path from the root of private data for a name that is no text. Those
of enums, which the loaders of the catalog raise, are left out, and so is `InvalidMigrationName`, which nothing raises.
A connection that is lost is a case of `Sqlite` of its own here. -/
inductive ContentError where
  | connectionLost
  | sqlite (message : Text)
  | io (message : Text)
  | nonUtf8Path (path : List FileName)
  | duplicatePrefix (scope digits : Text)
  | migrationHashDrift (path expectedHash actualHash : Text)
  deriving DecidableEq, Repr

structure AppliedMigration where
  id : Text
  hash : Text
  rejectedCount : Nat
  deriving DecidableEq, Repr

structure RejectedStatement where
  migrationId : Text
  statementIndex : Nat
  error : Text
  deriving DecidableEq, Repr

/-- Commands over a connection to the database. -/
abbrev Script (T α : Type) := Cmd ContentError (Conn Text (ContentDb T)) α

namespace Script

variable {T : Type}

def nested : ContentError := .sqlite "cannot start a transaction within a transaction".toList
def outside : ContentError := .sqlite "cannot commit - no transaction is active".toList
def unknown : ContentError := .sqlite "no such savepoint".toList

def rawSql (engine : Engine T) (sql : Text) : Script T (Option Text) :=
  Conn.query .connectionLost fun db =>
    ((engine.rawSql sql db.tables).1, { db with tables := (engine.rawSql sql db.tables).2 })

def rawStatement (engine : Engine T) (sql : Text) : Script T (Option Text) :=
  Conn.command .connectionLost fun c =>
    let r := engine.rawStatement sql (c.db, c.saves)
    .ok (r.1, { c with db := r.2.1, saves := r.2.2 })

/-- `let _ = ROLLBACK`. -/
def rollback : Script T Unit := ⟨fun c => ((Conn.rollback .connectionLost outside).run c).map fun r => (.ok (), r.2)⟩

/-- `CREATE TABLE IF NOT EXISTS _content_schema_migrations`. -/
def createSchemaMigrations : Script T Unit :=
  Conn.query .connectionLost fun db => ((), { db with schemaMigrations := some (db.schemaMigrations.getD []) })

def selectSchemaRow (version : Int) : Script T (Option SchemaRow) :=
  Conn.query .connectionLost fun db => ((db.schemaMigrations.getD []).find? fun row => row.version = version, db)

/-- The version is the primary key. -/
def insertSchemaRow (row : SchemaRow) : Script T (Option Text) :=
  Conn.query .connectionLost fun db =>
    let rows := db.schemaMigrations.getD []
    if rows.any fun old => old.version = row.version then
      (some "UNIQUE constraint failed: _content_schema_migrations.version".toList, db)
    else (none, { db with schemaMigrations := some (rows ++ [row]) })

def createDataMigrations : Script T Unit :=
  Conn.query .connectionLost fun db => ((), { db with dataMigrations := some (db.dataMigrations.getD []) })

def selectDataHash (path : Text) : Script T (Option Text) :=
  Conn.query .connectionLost fun db =>
    (((db.dataMigrations.getD []).find? fun row => row.path = path).map (·.hash), db)

/-- The path is the primary key. -/
def insertDataRow (row : DataRow) : Script T (Option Text) :=
  Conn.query .connectionLost fun db =>
    let rows := db.dataMigrations.getD []
    if rows.any fun old => old.path = row.path then
      (some "UNIQUE constraint failed: _content_data_migrations.path".toList, db)
    else (none, { db with dataMigrations := some (rows ++ [row]) })

end Script

open Script

variable {T : Type}

/-! ## The schema -/

structure SchemaMigration where
  version : Int
  id : Text
  sql : Text

/-- `SCHEMA_MIGRATIONS`, by the files that are built in. -/
def schemaMigrations (file : Text → Text) : List SchemaMigration :=
  [(1, "V0001__core.sql"), (10, "V0010__enums.sql"), (20, "V0020__maps.sql"), (30, "V0030__mobs.sql"),
    (40, "V0040__motion.sql"),
    (50, "V0050__spawns.sql"), (60, "V0060__player.sql")].map fun entry =>
    ⟨entry.1, entry.2.toList, file entry.2.toList⟩

/-- A round of the loop of `apply_schema_migrations`. -/
def applySchemaMigration (engine : Engine T) (migration : SchemaMigration) : Script T (Option AppliedMigration) := do
  let hash := engine.hashText migration.sql
  match ← selectSchemaRow migration.version with
  | some row =>
    if row.hash ≠ hash then Cmd.throw (.migrationHashDrift row.id row.hash hash)
    else return none
  | none =>
    Conn.begin .connectionLost nested
    match ← rawSql engine migration.sql with
    | some error =>
      rollback
      Cmd.throw (.sqlite error)
    | none =>
      match ← insertSchemaRow ⟨migration.version, migration.id, hash⟩ with
      | some error =>
        rollback
        Cmd.throw (.sqlite error)
      | none =>
        Conn.commit .connectionLost outside
        return some ⟨migration.id, hash, 0⟩

def applySchemaMigrations (engine : Engine T) (migrations : List SchemaMigration) :
    Script T (List AppliedMigration) := do
  createSchemaMigrations
  Cmd.collect (applySchemaMigration engine) migrations

/-! ## Private data -/

structure DiscoveredMigration where
  id : Text
  hash : Text
  sql : Text
  deriving DecidableEq, Repr

def sanitizeId (value : Text) : Text := value.map fun ch => if ch.isAlphanum then ch else '_'

def savepointName (id : Text) (statementIndex : Nat) : Text :=
  "sp_".toList ++ sanitizeId id ++ ['_'] ++ Nat.toDigits 10 statementIndex

/-- A round of the inner loop of `apply_private_data_migrations`. -/
def applyStatement (engine : Engine T) (id : Text) (statement : Text × Nat) : Script T (Option RejectedStatement) := do
  let name := savepointName id statement.2
  Conn.savepoint .connectionLost name
  match ← rawStatement engine statement.1 with
  | none =>
    Conn.release .connectionLost unknown name
    return none
  | some error =>
    Conn.rollbackTo .connectionLost unknown name
    Conn.release .connectionLost unknown name
    return some ⟨id, statement.2, error⟩

/-- A round of the outer loop. -/
def applyDataMigration (engine : Engine T) (migration : DiscoveredMigration) :
    Script T (Option (AppliedMigration × List RejectedStatement)) := do
  match ← selectDataHash migration.id with
  | some existingHash =>
    if existingHash ≠ migration.hash then Cmd.throw (.migrationHashDrift migration.id existingHash migration.hash)
    else return none
  | none =>
    let rejected ← Cmd.collect (applyStatement engine migration.id) (splitSqlStatements migration.sql).zipIdx
    match ← insertDataRow ⟨migration.id, migration.hash, rejected.length⟩ with
    | some error => Cmd.throw (.sqlite error)
    | none => return some (⟨migration.id, migration.hash, rejected.length⟩, rejected)

/-- `apply_private_data_migrations`, of what the discovery found. -/
def applyPrivateDataMigrations (engine : Engine T) (discovered : Except ContentError (List DiscoveredMigration)) :
    Script T (List AppliedMigration × List RejectedStatement) := do
  createDataMigrations
  let migrations ← Cmd.tryRead fun _ => discovered
  let results ← Cmd.collect (applyDataMigration engine) migrations
  return (results.map (·.1), results.flatMap (·.2))

/-- What an attempt over a database returns, and what the database holds once its connection has ended; it is cut off
after some commands, or not. -/
def attempt {α : Type} (script : Script T α) (left : Option Nat) (db : ContentDb T) :
    Option (Except ContentError α × ContentDb T) :=
  (script.run (Conn.fresh db left)).map fun r => (r.1, r.2.durable)

/-! ## What the schema comes to -/

section
variable (engine : Engine T)

def SchemaMigration.row (migration : SchemaMigration) : SchemaRow :=
  ⟨migration.version, migration.id, engine.hashText migration.sql⟩

def SchemaMigration.applied (migration : SchemaMigration) : AppliedMigration :=
  ⟨migration.id, engine.hashText migration.sql, 0⟩

def runScripts (tables : T) (migrations : List SchemaMigration) : T :=
  migrations.foldl (fun tables migration => (engine.rawSql migration.sql tables).2) tables

/-- The database after some migrations, each whole and recorded. -/
def upgraded (base : ContentDb T) (migrations : List SchemaMigration) : ContentDb T :=
  ⟨runScripts engine base.tables migrations, some (migrations.map (SchemaMigration.row engine)), base.dataMigrations⟩

end

section
variable {engine : Engine T} {base : ContentDb T} {lasts : Bool} {migration : SchemaMigration}
  {done : List SchemaMigration}

theorem upgraded_snoc : upgraded engine base (done ++ [migration]) =
    ⟨(engine.rawSql migration.sql (upgraded engine base done).tables).2,
      some (done.map (SchemaMigration.row engine) ++ [migration.row engine]), base.dataMigrations⟩ := by
  unfold upgraded runScripts
  rw [List.foldl_append, List.map_append]
  rfl

/-- Why an attempt at the schema ends early. -/
def SchemaStop (engine : Engine T) (lasts : Bool) (tables : T) (migration : SchemaMigration) (e : ContentError) :
    Prop :=
  e = .connectionLost ∧ lasts = false ∨ ∃ error, e = .sqlite error ∧ (engine.rawSql migration.sql tables).1 = some error

theorem rollback_durable {db s : ContentDb T} :
    Cmd.Triple (Conn.At lasts db [(none, s)]) rollback (fun _ c => c.durable = s)
    fun _ _ => False := by
  intro c hc
  obtain ⟨r, hrun, hend⟩ := Conn.rollback_spec c hc
  refine ⟨(.ok (), r.2), ?_, ?_⟩
  · unfold rollback
    dsimp only
    rw [hrun]
    rfl
  · obtain ⟨e | a, t⟩ := r
    · exact hend.2.2
    · obtain ⟨hdb, hsaves, -⟩ := hend
      show Conn.behind t.db t.saves = s
      rw [hdb, hsaves]
      rfl

/-- A migration that is recorded as it is does nothing. -/
theorem applySchemaMigration_recorded
    (hrow : done.find? (fun old => old.version = migration.version) = some migration) :
    Cmd.Triple (Conn.At lasts (upgraded engine base done) []) (applySchemaMigration engine migration)
      (fun applied c => applied = none ∧ Conn.At lasts (upgraded engine base done) [] c)
      (Conn.Lost .connectionLost lasts (upgraded engine base done)) := by
  refine Cmd.Triple.bind (Conn.query_spec _) ?_
  intro found
  refine Cmd.Triple.of_fact ?_
  have hfound : (done.map (SchemaMigration.row engine)).find? (fun row => row.version = migration.version) =
      some (migration.row engine) := by
    rw [List.find?_map]
    exact congrArg (Option.map _) hrow
  rintro rfl
  dsimp only [upgraded, Option.getD_some]
  rw [hfound]
  simp only [SchemaMigration.row, ne_eq, not_true_eq_false, if_false]
  exact Cmd.Triple.pure fun c hc => ⟨rfl, hc⟩

/-- A migration that is not recorded is applied and recorded, or nothing of it is kept. -/
theorem applySchemaMigration_missing (hnew : ∀ old ∈ done, old.version ≠ migration.version) :
    Cmd.Triple (Conn.At lasts (upgraded engine base done) []) (applySchemaMigration engine migration)
      (fun applied c => applied = some (migration.applied engine) ∧
        Conn.At lasts (upgraded engine base (done ++ [migration])) [] c)
      (fun e c => c.durable = upgraded engine base done ∧
        SchemaStop engine lasts (upgraded engine base done).tables migration e) := by
  have hlost : ∀ e (c : Conn Text (ContentDb T)), Conn.Lost .connectionLost lasts (upgraded engine base done) e c →
      c.durable = upgraded engine base done ∧ SchemaStop engine lasts (upgraded engine base done).tables migration e :=
    fun e c h => ⟨h.2.2, .inl ⟨h.1, h.2.1⟩⟩
  have hversions : ∀ row ∈ done.map (SchemaMigration.row engine), row.version ≠ migration.version := by
    intro row hrow
    obtain ⟨old, hold, rfl⟩ := List.mem_map.1 hrow
    exact hnew old hold
  have hfound : (done.map (SchemaMigration.row engine)).find? (fun row => row.version = migration.version) = none := by
    rw [List.find?_eq_none]
    intro row hrow
    simpa using hversions row hrow
  have hfree : (done.map (SchemaMigration.row engine)).any (fun row => row.version = migration.version) = false := by
    rw [List.any_eq_false]
    intro row hrow
    simpa using hversions row hrow
  refine .seq (Conn.query_spec _) hlost ?_
  intro found
  refine .of_fact ?_
  rintro rfl
  dsimp only
  rw [show (upgraded engine base done).schemaMigrations = some (done.map (SchemaMigration.row engine)) from rfl,
    Option.getD_some, hfound]
  refine .seq Conn.begin_spec hlost ?_
  intro _
  refine .seq (Conn.query_spec _) hlost ?_
  intro result
  refine .of_fact ?_
  intro hresult
  cases result with
  | some error =>
    refine .seq rollback_durable (fun _ _ h => h.elim) ?_
    intro _
    exact .throw fun c hc => ⟨hc, .inr ⟨error, rfl, hresult.symm⟩⟩
  | none =>
    refine .seq (Conn.query_spec _) hlost ?_
    intro inserted
    refine .of_fact ?_
    dsimp only
    rw [show (upgraded engine base done).schemaMigrations = some (done.map (SchemaMigration.row engine)) from rfl,
      Option.getD_some, hfree]
    rintro rfl
    refine .seq Conn.commit_spec hlost ?_
    intro _
    refine .pure ?_
    intro c hc
    rw [upgraded_snoc]
    exact ⟨rfl, hc⟩

variable {migrations : List SchemaMigration} {db : ContentDb T} {k : Nat}

theorem find?_version : ∀ {migrations : List SchemaMigration}, (migrations.map (·.version)).Nodup →
    migration ∈ migrations →
    migrations.find? (fun old => old.version = migration.version) = some migration
  | [], _, hmem => by cases hmem
  | old :: migrations, hversions, hmem => by
    obtain ⟨hold, hrest⟩ := List.nodup_cons.1 hversions
    rcases List.mem_cons.1 hmem with rfl | hmem
    · simp
    · have hne : old.version ≠ migration.version := by
        intro heq
        exact hold (List.mem_map.2 ⟨migration, hmem, heq.symm⟩)
      rw [List.find?_cons_of_neg (by simpa using hne)]
      exact find?_version hrest hmem

/-- Why an attempt ended after `k` migrations: the connection was lost, or the engine refused the next script. -/
def StoppedAt (engine : Engine T) (base : ContentDb T) (lasts : Bool) (migrations : List SchemaMigration) (k : Nat)
    (e : ContentError) : Prop :=
  e = .connectionLost ∧ lasts = false ∨ ∃ migration error, migrations[k]? = some migration ∧ e = .sqlite error ∧
    (engine.rawSql migration.sql (runScripts engine base.tables (migrations.take k))).1 = some error

/-- What was reached when an attempt ended early, not before where it began. -/
def SchemaCut (engine : Engine T) (base : ContentDb T) (lasts : Bool) (migrations : List SchemaMigration) (k : Nat)
    (e : ContentError) (c : Conn Text (ContentDb T)) : Prop :=
  ∃ j, k ≤ j ∧ j ≤ migrations.length ∧ c.durable = upgraded engine base (migrations.take j) ∧
    StoppedAt engine base lasts migrations j e

/-- The loop after the rounds of `done`, of which the first `k` found their migrations recorded. -/
def SchemaLoop (engine : Engine T) (base : ContentDb T) (lasts : Bool) (migrations : List SchemaMigration) (k : Nat)
    (done : List SchemaMigration) (applied : List AppliedMigration) (c : Conn Text (ContentDb T)) : Prop :=
  applied = ((migrations.take (max done.length k)).drop k).map (SchemaMigration.applied engine) ∧
    Conn.At lasts (upgraded engine base (migrations.take (max done.length k))) [] c

theorem schemaLoop_recorded {rest : List SchemaMigration} {applied : List AppliedMigration}
    (hversions : (migrations.map (·.version)).Nodup) (hk : k ≤ migrations.length)
    (hsplit : migrations = done ++ migration :: rest) (hlt : done.length < k) :
    Cmd.Triple (SchemaLoop engine base lasts migrations k done applied) (applySchemaMigration engine migration)
      (fun a => SchemaLoop engine base lasts migrations k (done ++ [migration]) (applied ++ a.toList))
      (SchemaCut engine base lasts migrations k) := by
  unfold SchemaLoop
  refine .of_fact ?_
  intro happlied
  have hmem : migration ∈ migrations.take k := by
    have hat : (migrations.take k)[done.length]? = some migration := by
      rw [List.getElem?_take_of_lt hlt, hsplit]
      simp
    exact List.mem_of_getElem? hat
  have hrow := find?_version (hversions.sublist ((List.take_sublist k migrations).map _)) hmem
  have hbefore : max done.length k = k := by omega
  have hafter : max (done.length + 1) k = k := by omega
  rw [List.length_append, List.length_singleton, hafter]
  rw [hbefore] at happlied ⊢
  refine (applySchemaMigration_recorded hrow).weaken (fun _ h => h) ?_ ?_
  · rintro _ c ⟨rfl, hc⟩
    exact ⟨by rw [happlied, Option.toList_none, List.append_nil], hc⟩
  · rintro e c ⟨hlost, hlasts, hdurable⟩
    exact ⟨k, le_rfl, hk, hdurable, .inl ⟨hlost, hlasts⟩⟩

theorem schemaLoop_missing {rest : List SchemaMigration} {applied : List AppliedMigration}
    (hversions : (migrations.map (·.version)).Nodup) (hsplit : migrations = done ++ migration :: rest)
    (hle : k ≤ done.length) :
    Cmd.Triple (SchemaLoop engine base lasts migrations k done applied) (applySchemaMigration engine migration)
      (fun a => SchemaLoop engine base lasts migrations k (done ++ [migration]) (applied ++ a.toList))
      (SchemaCut engine base lasts migrations k) := by
  unfold SchemaLoop
  refine .of_fact ?_
  intro happlied
  have htake : migrations.take done.length = done := by
    rw [hsplit, List.take_left]
  have htakeNext : migrations.take (done.length + 1) = done ++ [migration] := by
    rw [hsplit, List.take_append, List.take_of_length_le (Nat.le_succ _), Nat.add_sub_cancel_left]
    rfl
  have hafter : max (done.length + 1) k = done.length + 1 := by omega
  rw [List.length_append, List.length_singleton, hafter, htakeNext]
  rw [max_eq_left hle, htake] at happlied ⊢
  have hnew : ∀ old ∈ done, old.version ≠ migration.version := by
    intro old hold heq
    rw [hsplit, List.map_append, List.map_cons] at hversions
    have hdisjoint := (List.nodup_append.1 hversions).2.2 _ (List.mem_map_of_mem hold) _ List.mem_cons_self
    exact hdisjoint heq
  refine (applySchemaMigration_missing hnew).weaken (fun _ h => h) ?_ ?_
  · rintro _ c ⟨rfl, hc⟩
    refine ⟨?_, hc⟩
    rw [happlied, List.drop_append_of_le_length hle, List.map_append]
    rfl
  · rintro e c ⟨hdurable, hstop⟩
    refine ⟨done.length, hle, ?_, ?_, ?_⟩
    · rw [hsplit, List.length_append]
      exact Nat.le_add_right _ _
    · rw [htake]
      exact hdurable
    · rcases hstop with hlost | ⟨error, he, herror⟩
      · exact .inl hlost
      · refine .inr ⟨migration, error, ?_, he, ?_⟩
        · rw [hsplit]
          simp
        · rw [htake]
          exact herror

/-- From the first `k` migrations on an attempt comes to all of them, or is cut after some more. -/
theorem collect_schema (hversions : (migrations.map (·.version)).Nodup) (hk : k ≤ migrations.length) :
    Cmd.Triple (Conn.At lasts (upgraded engine base (migrations.take k)) [])
      (Cmd.collect (applySchemaMigration engine) migrations)
      (fun applied c => applied = (migrations.drop k).map (SchemaMigration.applied engine) ∧
        Conn.At lasts (upgraded engine base migrations) [] c)
      (SchemaCut engine base lasts migrations k) := by
  refine (Cmd.Triple.collect (SchemaLoop engine base lasts migrations k) ?_).weaken ?_ ?_ fun _ _ h => h
  · intro done migration rest applied hsplit
    by_cases hlt : done.length < k
    · exact schemaLoop_recorded hversions hk hsplit hlt
    · exact schemaLoop_missing hversions hsplit (not_lt.1 hlt)
  · intro c hc
    unfold SchemaLoop
    rw [List.length_nil, Nat.zero_max, List.drop_take_self]
    exact ⟨rfl, hc⟩
  · intro applied c hc
    unfold SchemaLoop at hc
    rwa [max_eq_left hk, List.take_length] at hc

/-! ## Attempts -/

/-- The first `k` migrations are in the database and no more; before the first there may be no table of migrations. -/
def Reached (engine : Engine T) (base : ContentDb T) (migrations : List SchemaMigration) (k : Nat) (db : ContentDb T) :
    Prop :=
  db = upgraded engine base (migrations.take k) ∨ k = 0 ∧ db = base

theorem applySchemaMigrations_spec (hversions : (migrations.map (·.version)).Nodup) (hk : k ≤ migrations.length)
    (hbase : base.schemaMigrations = none) (hdb : Reached engine base migrations k db) :
    Cmd.Triple (Conn.At lasts db []) (applySchemaMigrations engine migrations)
      (fun applied c => applied = (migrations.drop k).map (SchemaMigration.applied engine) ∧
        Conn.At lasts (upgraded engine base migrations) [] c)
      (fun e c => ∃ j, k ≤ j ∧ j ≤ migrations.length ∧ Reached engine base migrations j c.durable ∧
        StoppedAt engine base lasts migrations j e) := by
  have hcut : ∀ e (c : Conn Text (ContentDb T)), Conn.Lost .connectionLost lasts db e c →
      ∃ j, k ≤ j ∧ j ≤ migrations.length ∧ Reached engine base migrations j c.durable ∧
        StoppedAt engine base lasts migrations j e := by
    rintro e c ⟨hlost, hlasts, hdurable⟩
    exact ⟨k, le_rfl, hk, hdurable ▸ hdb, .inl ⟨hlost, hlasts⟩⟩
  refine .seq (Conn.query_spec _) hcut ?_
  intro _
  refine .of_fact ?_
  rintro -
  have hcreated : { db with schemaMigrations := some (db.schemaMigrations.getD []) } =
      upgraded engine base (migrations.take k) := by
    rcases hdb with rfl | ⟨rfl, rfl⟩
    · rfl
    · rw [hbase]
      rfl
  rw [hcreated]
  refine (collect_schema hversions hk).weaken (fun _ h => h) (fun _ _ h => h) ?_
  rintro e c ⟨j, hkj, hj, hdurable, hstop⟩
  exact ⟨j, hkj, hj, .inl hdurable, hstop⟩

/-- The database after attempts each of which was cut off after some commands. -/
def afterAttempts (engine : Engine T) (migrations : List SchemaMigration) (db : ContentDb T) (cuts : List Nat) :
    ContentDb T :=
  cuts.foldl (fun db left => ((attempt (applySchemaMigrations engine migrations) (some left) db).map (·.2)).getD db) db

theorem reached_afterAttempts (hversions : (migrations.map (·.version)).Nodup) (hbase : base.schemaMigrations = none)
    (cuts : List Nat) :
    ∃ k ≤ migrations.length, Reached engine base migrations k (afterAttempts engine migrations base cuts) := by
  induction cuts using List.reverseRecOn with
  | nil => exact ⟨0, Nat.zero_le _, .inr ⟨rfl, rfl⟩⟩
  | append_singleton cuts left ih =>
    obtain ⟨k, hk, hreached⟩ := ih
    unfold afterAttempts at hreached ⊢
    rw [List.foldl_append, List.foldl_cons, List.foldl_nil]
    generalize List.foldl _ base cuts = db at hreached
    obtain ⟨⟨e | applied, c⟩, hrun, hend⟩ := applySchemaMigrations_spec hversions hk hbase hreached
      (Conn.fresh db (some left)) ⟨rfl, rfl, rfl⟩
    · obtain ⟨j, -, hj, hdurable, -⟩ := hend
      refine ⟨j, hj, ?_⟩
      rw [attempt, hrun]
      exact hdurable
    · obtain ⟨-, hdb, hsaves, -⟩ := hend
      refine ⟨migrations.length, le_rfl, .inl ?_⟩
      rw [attempt, hrun, List.take_length, ← hdb]
      show Conn.behind c.db c.saves = c.db
      rw [hsaves]
      rfl

theorem attempt_eq {α : Type} {script : Script T α} {left : Option Nat} {r : Except ContentError α}
    {c : Conn Text (ContentDb T)} (h : script.run (Conn.fresh db left) = some (r, c)) :
    attempt script left db = some (r, c.durable) := by
  rw [attempt, h]
  rfl

/-- However often the upgrade of the schema was cut off, at whatever commands, the database holds the first of the
migrations, each whole and recorded once. The next attempt that is not cut off applies and reports exactly the others,
in order, and ends where one attempt at a fresh database does; or the engine refuses a script, and then those before it
stay and nothing of it does. -/
theorem schema_upgrade_resumes (hversions : (migrations.map (·.version)).Nodup) (hbase : base.schemaMigrations = none)
    (cuts : List Nat) : ∃ k ≤ migrations.length,
      Reached engine base migrations k (afterAttempts engine migrations base cuts) ∧
      (attempt (applySchemaMigrations engine migrations) none (afterAttempts engine migrations base cuts) =
          some (.ok ((migrations.drop k).map (SchemaMigration.applied engine)), upgraded engine base migrations) ∨
        ∃ j migration error db, k ≤ j ∧ migrations[j]? = some migration ∧
          (engine.rawSql migration.sql (runScripts engine base.tables (migrations.take j))).1 = some error ∧
          attempt (applySchemaMigrations engine migrations) none (afterAttempts engine migrations base cuts) =
            some (.error (.sqlite error), db) ∧ Reached engine base migrations j db) := by
  obtain ⟨k, hk, hreached⟩ := reached_afterAttempts hversions hbase cuts
  refine ⟨k, hk, hreached, ?_⟩
  generalize afterAttempts engine migrations base cuts = db at hreached
  obtain ⟨⟨e | applied, c⟩, hrun, hend⟩ := applySchemaMigrations_spec hversions hk hbase hreached
    (Conn.fresh db none) ⟨rfl, rfl, rfl⟩
  · obtain ⟨j, hkj, -, hdurable, ⟨-, hlasts⟩ | ⟨migration, error, hnext, rfl, herror⟩⟩ := hend
    · cases hlasts
    · exact .inr ⟨j, migration, error, c.durable, hkj, hnext, herror, attempt_eq hrun, hdurable⟩
  · obtain ⟨rfl, hdb, hsaves, -⟩ := hend
    refine .inl ?_
    rw [attempt_eq hrun, ← hdb, Conn.durable, hsaves]
    rfl

end

/-- An engine that refuses nothing but the word of that meaning, and its tables the scripts that it ran. One word
commits, and one empties the table of private data. -/
def journal : Engine (List Text) where
  rawSql sql tables := if sql = "REFUSE".toList then (some "refused".toList, tables ++ [sql])
    else (none, tables ++ [sql])
  rawStatement sql view :=
    if sql = "COMMIT".toList then (none, view.1, [])
    else if sql = "FORGET".toList then (none, { view.1 with dataMigrations := some [] }, view.2)
    else if sql = "REFUSE".toList then (some "refused".toList, { view.1 with tables := view.1.tables ++ [sql] }, view.2)
    else (none, { view.1 with tables := view.1.tables ++ [sql] }, view.2)
  hashText sql := sql

theorem schema_upgrade_resumes_journal : ∃ k ≤ 7,
    Reached journal ⟨[], none, none⟩ (schemaMigrations id) k
      (afterAttempts journal (schemaMigrations id) ⟨[], none, none⟩ [0, 3, 9, 20]) ∧
    (attempt (applySchemaMigrations journal (schemaMigrations id)) none
          (afterAttempts journal (schemaMigrations id) ⟨[], none, none⟩ [0, 3, 9, 20]) =
        some (.ok (((schemaMigrations id).drop k).map (SchemaMigration.applied journal)),
          upgraded journal ⟨[], none, none⟩ (schemaMigrations id)) ∨
      ∃ j migration error db, k ≤ j ∧ (schemaMigrations id)[j]? = some migration ∧
        (journal.rawSql migration.sql (runScripts journal [] ((schemaMigrations id).take j))).1 = some error ∧
        attempt (applySchemaMigrations journal (schemaMigrations id)) none
            (afterAttempts journal (schemaMigrations id) ⟨[], none, none⟩ [0, 3, 9, 20]) =
              some (.error (.sqlite error), db) ∧
        Reached journal ⟨[], none, none⟩ (schemaMigrations id) j db) := by
  have hversions : ((schemaMigrations id).map (·.version)).Nodup := by decide
  exact schema_upgrade_resumes hversions rfl [0, 3, 9, 20]

/-! ## What private data comes to -/

section
variable (engine : Engine T)

/-- A statement that the engine refuses is listed, and nothing of it stays. -/
def afterStatement (id : Text) (s : T × List RejectedStatement) (statement : Text × Nat) : T × List RejectedStatement :=
  match engine.rawSql statement.1 s.1 with
  | (none, tables) => (tables, s.2)
  | (some error, _) => (s.1, s.2 ++ [⟨id, statement.2, error⟩])

def afterStatements (id : Text) (tables : T) (statements : List (Text × Nat)) : T × List RejectedStatement :=
  statements.foldl (afterStatement engine id) (tables, [])

def ContentDb.dataRows (db : ContentDb T) : List DataRow := db.dataMigrations.getD []

def ContentDb.dataHash (db : ContentDb T) (path : Text) : Option Text :=
  (db.dataRows.find? fun row => row.path = path).map (·.hash)

/-- The whole file and its row. -/
def afterMigration (db : ContentDb T) (migration : DiscoveredMigration) :
    ContentDb T × AppliedMigration × List RejectedStatement :=
  let outcome := afterStatements engine migration.id db.tables (splitSqlStatements migration.sql).zipIdx
  ({ db with
      tables := outcome.1
      dataMigrations := some (db.dataRows ++ [⟨migration.id, migration.hash, outcome.2.length⟩]) },
    ⟨migration.id, migration.hash, outcome.2.length⟩, outcome.2)

/-- The files before a cut are whole, and of the one under way there are some first statements and no row. -/
inductive Cut : ContentDb T → List DiscoveredMigration → ContentDb T → Prop where
  | before (db : ContentDb T) (migrations : List DiscoveredMigration) : Cut db migrations db
  | within {db : ContentDb T} {migration : DiscoveredMigration} {statements : List (Text × Nat)}
      (migrations : List DiscoveredMigration) (hnew : db.dataHash migration.id = none)
      (hfirst : statements <+: (splitSqlStatements migration.sql).zipIdx) :
      Cut db (migration :: migrations)
        { db with tables := (afterStatements engine migration.id db.tables statements).1 }
  | past {db d : ContentDb T} {migration : DiscoveredMigration} {migrations : List DiscoveredMigration}
      (hnew : db.dataHash migration.id = none) (h : Cut (afterMigration engine db migration).1 migrations d) :
      Cut db (migration :: migrations) d
  | recorded {db d : ContentDb T} {migration : DiscoveredMigration} {migrations : List DiscoveredMigration}
      (hsame : db.dataHash migration.id = some migration.hash) (h : Cut db migrations d) :
        Cut db (migration :: migrations) d

end

section
variable {engine : Engine T} {lasts : Bool} {db : ContentDb T}

variable {migration : DiscoveredMigration}

-- where a statement commits, its savepoint is gone and cannot be released
example :
    (attempt
    (applyPrivateDataMigrations journal (.ok [⟨"010_base/0001__seed.sql".toList, "a".toList, "COMMIT".toList⟩])) none
    ⟨[], none, none⟩).map (·.1) = some (.error unknown) := by
  rfl

/-! ## Many attempts -/

/-- The row of a file that was applied. -/
def AppliedMigration.dataRow (applied : AppliedMigration) : DataRow := ⟨applied.id, applied.hash, applied.rejectedCount⟩

/-- Rows of other paths than the rows there are. -/
structure Grows (db db' : ContentDb T) (more : List DataRow) : Prop where
  rows : db'.dataRows = db.dataRows ++ more
  distinct : (db.dataRows.map (·.path)).Nodup → (db'.dataRows.map (·.path)).Nodup

theorem Grows.refl (db : ContentDb T) : Grows db db [] := ⟨(List.append_nil _).symm, fun h => h⟩

theorem Grows.trans {db' db'' : ContentDb T} {more more' : List DataRow} (h : Grows db db' more)
    (h' : Grows db' db'' more') :
    Grows db db'' (more ++ more') :=
  ⟨by rw [h'.rows, h.rows, List.append_assoc], fun hdistinct => h'.distinct (h.distinct hdistinct)⟩

theorem grows_afterMigration (hnew : db.dataHash migration.id = none) :
    Grows db (afterMigration engine db migration).1 [(afterMigration engine db migration).2.1.dataRow] := by
  refine ⟨rfl, ?_⟩
  intro hdistinct
  show ((db.dataRows ++ [_]).map DataRow.path).Nodup
  rw [List.map_append, List.nodup_append]
  refine ⟨hdistinct, List.nodup_singleton _, ?_⟩
  intro path hpath other hother
  obtain ⟨row, hrow, rfl⟩ := List.mem_map.1 hpath
  have hnone := List.find?_eq_none.1 (Option.map_eq_none_iff.1 hnew) row hrow
  obtain rfl : other = migration.id := List.mem_singleton.1 hother
  simpa using hnone

theorem Cut.grows {migrations : List DiscoveredMigration} {d : ContentDb T} (h : Cut engine db migrations d) :
    ∃ more, Grows db d more := by
  induction h with
  | before db _ => exact ⟨[], .refl db⟩
  | within _ _ _ => exact ⟨[], (List.append_nil _).symm, fun h => h⟩
  | past hnew _ ih =>
    obtain ⟨more, hgrows⟩ := ih
    exact ⟨_, (grows_afterMigration hnew).trans hgrows⟩
  | recorded _ _ ih => exact ih

end

end Zohar.Content
