/-
How characters come into the tables and go: `create_player` and `delete_player_with_code` of
zohar-db/src/postgres_backend/queries.rs, each call one atomic transaction, over `game.players`,
`game.player_progression` and `game.player_runtime_state` with the constraints and unique indexes of their migrations. A
transaction whose commit fails has not committed. A column that is checked to hold the texts of an enumeration is that
enumeration.
-/
import Zohar.Db.Tables
import Zohar.Lib.OrdMap
import Zohar.Lib.Run
import Zohar.Net.EntityKind

namespace Zohar.Characters

open Zohar.Lib
open Zohar.Db (DbError ProgressionRow RuntimeRow)
open Zohar.Net (PlayerGender PlayerBaseAppearance)

/-! ## Tables -/

structure PlayerRow where
  username : String
  slot : Int
  name : String
  cls : PlayerClass
  gender : PlayerGender
  appearance : PlayerBaseAppearance
  deletedAt : Option Int
  deriving DecidableEq, Repr

/-- `deleted_at IS NULL`. -/
def PlayerRow.active (r : PlayerRow) : Bool := r.deletedAt.isNone

/-- The table's `CHECK` on the slot. -/
def PlayerRow.checks (r : PlayerRow) : Bool := 0 ≤ r.slot && r.slot < 4

/-- The three tables by their primary keys, the delete codes of the profiles and the next value of the sequence of
player ids. -/
structure CharacterDb where
  profiles : String → Option String
  players : OrdMap PlayerId PlayerRow
  progression : OrdMap PlayerId ProgressionRow
  runtime : OrdMap PlayerId RuntimeRow
  nextId : Int

/-- The columns that `create_player` binds. -/
structure NewPlayer where
  username : String
  slot : UInt8
  name : String
  cls : PlayerClass
  gender : PlayerGender
  appearance : PlayerBaseAppearance
  deriving DecidableEq, Repr

def NewPlayer.row (p : NewPlayer) : PlayerRow := ⟨p.username, p.slot.toNat, p.name, p.cls, p.gender, p.appearance, none⟩

/-- A row of which only the level is given. -/
def newProgression : ProgressionRow := ⟨1, 0, 0, 0, 0, 0, 0, 0⟩

def newRuntime (now : Int) : RuntimeRow := ⟨none, none, none, none, none, none, .initial, now⟩

structure PlayerSummaryRow where
  id : PlayerId
  username : String
  slot : Int
  name : String
  cls : PlayerClass
  gender : PlayerGender
  appearance : PlayerBaseAppearance
  level : Int
  playtimeSecs : Int
  allocatedStr : Int
  allocatedVit : Int
  allocatedDex : Int
  allocatedInt : Int
  deriving DecidableEq, Repr

inductive CreatePlayerOutcome where
  | created (player : PlayerSummaryRow)
  | nameTaken
  deriving DecidableEq, Repr

/-! ## Statements -/

namespace CharacterDb

/-- An active row with the same name, or with the same user and slot, is in the way of `row`. -/
def holds (r row : PlayerRow) : Bool :=
  r.active && (r.name = row.name || r.username = row.username && r.slot = row.slot)

/-- The row would violate the primary key or one of the unique indexes, which `ON CONFLICT DO NOTHING` is about
alike. -/
def conflicts (db : CharacterDb) (id : PlayerId) (row : PlayerRow) : Bool :=
  (db.players.get? id).isSome || db.players.values.any fun r => holds r row

/-- The first statement of `create_player`. The id is drawn before the constraints are checked, and the reference to the
profile is checked last; `none` is a conflict. -/
def insertPlayer (db : CharacterDb) (row : PlayerRow) : Except DbError (Option PlayerId) × CharacterDb :=
  if i64Max < db.nextId then (.error (.sqlx "insert player identity"), db)
  else
    let id : PlayerId := ⟨db.nextId⟩
    let drawn := { db with nextId := db.nextId + 1 }
    if !row.checks then (.error (.sqlx "insert player identity"), drawn)
    else if db.conflicts id row then (.ok none, drawn)
    else if (db.profiles row.username).isNone then (.error (.sqlx "insert player identity"), drawn)
    else (.ok (some id), { drawn with players := db.players.insert id row })

def insertProgression (db : CharacterDb) (id : PlayerId) : Except DbError CharacterDb :=
  if (db.progression.get? id).isSome then .error (.sqlx "insert player progression")
  else .ok { db with progression := db.progression.insert id newProgression }

def insertRuntimeState (db : CharacterDb) (now : Int) (id : PlayerId) : Except DbError CharacterDb :=
  if (db.runtime.get? id).isSome then .error (.sqlx "insert player runtime state")
  else .ok { db with runtime := db.runtime.insert id (newRuntime now) }

/-- The query for the summary of a player. -/
def summary (db : CharacterDb) (id : PlayerId) : Option PlayerSummaryRow :=
  (db.players.get? id).bind fun p => (db.progression.get? id).map fun prog =>
    ⟨id, p.username, p.slot, p.name, p.cls, p.gender, p.appearance, prog.level, prog.playtimeSecs, prog.allocatedStr,
      prog.allocatedVit, prog.allocatedDex, prog.allocatedInt⟩

/-- The transaction is dropped: its rows are gone, the ids that it drew are not given back. -/
def rollback (db after : CharacterDb) : CharacterDb := { db with nextId := after.nextId }

/-- The calls of `create_player` that can fail to reach the server. -/
inductive CreateStage where
  | begin | identity | progression | runtime | summary | commit
  deriving DecidableEq, Repr

/-- What follows the first statement, once it has inserted a row. -/
def createRows (now : Int) (fault : Option CreateStage) (id : PlayerId) (db : CharacterDb) :
    Except DbError (PlayerSummaryRow × CharacterDb) :=
  if fault = some .progression then .error (.sqlx "insert player progression")
  else
    match db.insertProgression id with
    | .error e => .error e
    | .ok db =>
      if fault = some .runtime then .error (.sqlx "insert player runtime state")
      else
        match db.insertRuntimeState now id with
        | .error e => .error e
        | .ok db =>
          if fault = some .summary then .error (.sqlx "fetch created player summary")
          else
            match db.summary id with
            | none => .error (.sqlx "fetch created player summary")
            | some row => if fault = some .commit then .error (.sqlx "commit create player") else .ok (row, db)

def createPlayer (now : Int) (fault : Option CreateStage) (p : NewPlayer) (db : CharacterDb) :
    Except DbError CreatePlayerOutcome × CharacterDb :=
  if fault = some .begin then (.error (.sqlx "begin create player"), db)
  else if fault = some .identity then (.error (.sqlx "insert player identity"), db)
  else
    match db.insertPlayer p.row with
    | (.error e, after) => (.error e, db.rollback after)
    | (.ok none, after) => (.ok .nameTaken, db.rollback after)
    | (.ok (some id), after) =>
      match after.createRows now fault id with
      | .error e => (.error e, db.rollback after)
      | .ok (row, after) => (.ok (.created row), after)

/-- The rows that the update of `delete_player_with_code` is about, for a profile with that code. -/
def deletable (username : String) (slot : UInt8) (r : PlayerRow) : Bool :=
  r.username = username && r.slot = slot.toNat && r.active

/-- One statement: `fault` is that the server was not reached. -/
def deletePlayerWithCode (now : Int) (fault : Bool) (username : String) (slot : UInt8) (deleteCode : String)
    (db : CharacterDb) : Except DbError Bool × CharacterDb :=
  if fault then (.error (.sqlx "delete player with code"), db)
  else if db.profiles username = some deleteCode then
    (.ok (db.players.values.any (deletable username slot)),
      { db with
        players := db.players.map fun r => if deletable username slot r then { r with deletedAt := some now } else r })
  else (.ok false, db)

end CharacterDb

/-! ## Calls -/

/-- A call of any connection. -/
inductive Call where
  | create (now : Int) (fault : Option CharacterDb.CreateStage) (p : NewPlayer)
  | delete (now : Int) (fault : Bool) (username : String) (slot : UInt8) (deleteCode : String)
  deriving DecidableEq, Repr

namespace CharacterDb

def step (db : CharacterDb) : Call → Option CharacterDb
  | .create now fault p => some (db.createPlayer now fault p).2
  | .delete now fault username slot deleteCode => some (db.deletePlayerWithCode now fault username slot deleteCode).2

/-! ## What is claimed -/

/-- The two unique indexes hold. -/
structure Unique (db : CharacterDb) : Prop where
  names : ∀ id id' r r', db.players.get? id = some r → db.players.get? id' = some r' → r.active = true →
    r'.active = true → r.name = r'.name → id = id'
  slots : ∀ id id' r r', db.players.get? id = some r → db.players.get? id' = some r' → r.active = true →
    r'.active = true → r.username = r'.username → r.slot = r'.slot → id = id'

/-- One player is there with its rows that was not there before. -/
def Added (db after : CharacterDb) (now : Int) (p : NewPlayer) : Prop :=
  ∃ id, db.players.get? id = none ∧ after.players = db.players.insert id p.row ∧
    after.progression = db.progression.insert id newProgression ∧ after.runtime = db.runtime.insert id (newRuntime now)

structure SameTables (db after : CharacterDb) : Prop where
  players : after.players = db.players
  progression : after.progression = db.progression
  runtime : after.runtime = db.runtime

def NameHeld (db : CharacterDb) (name : String) : Prop :=
  ∃ id r, db.players.get? id = some r ∧ r.active = true ∧ r.name = name

def SlotHeld (db : CharacterDb) (username : String) (slot : UInt8) : Prop :=
  ∃ id r, db.players.get? id = some r ∧ r.active = true ∧ r.username = username ∧ r.slot = slot.toNat

/-- What `create_player` returns is true of what it did. -/
structure Truthful (db : CharacterDb) (now : Int) (p : NewPlayer) (reply : Except DbError CreatePlayerOutcome)
    (after : CharacterDb) : Prop where
  created : (∃ row, reply = .ok (.created row)) ↔ Added db after now p
  nameTaken : reply = .ok .nameTaken → db.NameHeld p.name
  unchanged : (¬ ∃ row, reply = .ok (.created row)) → SameTables db after

def TruthfulCall (db : CharacterDb) : Call → Prop
  | .create now fault p => Truthful db now p (db.createPlayer now fault p).1 (db.createPlayer now fault p).2
  | .delete .. => True

/-- The insert of a player is run, and an id can be drawn for it. -/
def Inserts (db : CharacterDb) (fault : Option CreateStage) : Prop :=
  fault ≠ some .begin ∧ fault ≠ some .identity ∧ db.nextId ≤ i64Max

/-- A player is created in a slot that is free, unless its name is taken as well or the insert is not run. -/
def SlotFree (db : CharacterDb) : Call → Prop
  | .create _ fault p => db.Inserts fault → db.SlotHeld p.username p.slot → db.NameHeld p.name
  | .delete .. => True

/-! ## What the tables keep -/

/-- The indexes, the check and the references of the tables, and the sequence ahead of the ids. -/
structure Kept (db : CharacterDb) : Prop where
  unique : Unique db
  checked : ∀ id r, db.players.get? id = some r → r.checks = true
  drawn : ∀ id r, db.players.get? id = some r → id.raw < db.nextId
  progression : ∀ id q, db.progression.get? id = some q → ∃ r, db.players.get? id = some r
  runtime : ∀ id q, db.runtime.get? id = some q → ∃ r, db.players.get? id = some r

section Statements

variable {db after : CharacterDb} {now : Int} {fault : Option CreateStage} {p : NewPlayer} {id : PlayerId}

theorem any_values {q : PlayerRow → Bool} :
    db.players.values.any q = true ↔ ∃ id r, db.players.get? id = some r ∧ q r = true := by
  rw [List.any_eq_true]
  constructor
  · rintro ⟨r, hr, hq⟩
    obtain ⟨⟨id, r⟩, he, rfl⟩ := List.mem_map.1 hr
    exact ⟨id, r, OrdMap.get?_eq_some_iff.2 he, hq⟩
  · rintro ⟨id, r, hr, hq⟩
    exact ⟨r, List.mem_map.2 ⟨(id, r), OrdMap.get?_eq_some_iff.1 hr, rfl⟩, hq⟩

theorem holds_iff {r row : PlayerRow} : holds r row = true ↔
    r.active = true ∧ (r.name = row.name ∨ r.username = row.username ∧ r.slot = row.slot) := by
  simp [holds]

/-- No id that the sequence still holds is in use. -/
theorem Kept.fresh (h : db.Kept) : db.players.get? ⟨db.nextId⟩ = none := by
  cases hr : db.players.get? ⟨db.nextId⟩ with
  | none => rfl
  | some r => exact absurd (h.drawn _ r hr) (lt_irrefl _)

/-- A conflict is one about the name or one about the slot. -/
theorem Kept.conflicts_iff (h : db.Kept) :
    db.conflicts ⟨db.nextId⟩ p.row = true ↔ db.NameHeld p.name ∨ db.SlotHeld p.username p.slot := by
  unfold conflicts
  rw [h.fresh, Option.isSome_none, Bool.false_or, any_values]
  constructor
  · rintro ⟨id, r, hr, hq⟩
    obtain ⟨hactive, hname | ⟨huser, hslot⟩⟩ := holds_iff.1 hq
    · exact .inl ⟨id, r, hr, hactive, hname⟩
    · exact .inr ⟨id, r, hr, hactive, huser, hslot⟩
  · rintro (⟨id, r, hr, hactive, hname⟩ | ⟨id, r, hr, hactive, huser, hslot⟩)
    · exact ⟨id, r, hr, holds_iff.2 ⟨hactive, .inl hname⟩⟩
    · exact ⟨id, r, hr, holds_iff.2 ⟨hactive, .inr ⟨huser, hslot⟩⟩⟩

theorem insertProgression_ok (h : db.insertProgression id = .ok after) :
    after = { db with progression := db.progression.insert id newProgression } := by
  unfold insertProgression at h
  split at h
  · cases h
  · cases h
    rfl

theorem insertRuntimeState_ok (h : db.insertRuntimeState now id = .ok after) :
    after = { db with runtime := db.runtime.insert id (newRuntime now) } := by
  unfold insertRuntimeState at h
  split at h
  · cases h
  · cases h
    rfl

theorem createRows_spec {row : PlayerSummaryRow} (h : db.createRows now fault id = .ok (row, after)) :
    after = { db with
      progression := db.progression.insert id newProgression
      runtime := db.runtime.insert id (newRuntime now) } ∧ after.summary id = some row := by
  unfold createRows at h
  split at h
  · cases h
  · split at h
    · cases h
    · rename_i hprog
      split at h
      · cases h
      · split at h
        · cases h
        · rename_i hrun
          split at h
          · cases h
          · split at h
            · cases h
            · rename_i hsummary
              split at h
              · cases h
              · cases h
                cases insertProgression_ok hprog
                cases insertRuntimeState_ok hrun
                exact ⟨rfl, hsummary⟩

/-- The tables with one player more. -/
def withPlayer (db : CharacterDb) (now : Int) (p : NewPlayer) : CharacterDb where
  profiles := db.profiles
  players := db.players.insert ⟨db.nextId⟩ p.row
  progression := db.progression.insert ⟨db.nextId⟩ newProgression
  runtime := db.runtime.insert ⟨db.nextId⟩ (newRuntime now)
  nextId := db.nextId + 1

/-- All that a call of `create_player` can do. -/
inductive Creates (db : CharacterDb) (now : Int) (fault : Option CreateStage) (p : NewPlayer) :
    Except DbError CreatePlayerOutcome × CharacterDb → Prop
  | failed (e : DbError) {n : Int} (hn : db.nextId ≤ n) : Creates db now fault p (.error e, { db with nextId := n })
  | conflict (hins : db.Inserts fault) (hconf : db.conflicts ⟨db.nextId⟩ p.row = true) :
    Creates db now fault p (.ok .nameTaken, { db with nextId := db.nextId + 1 })
  | created {row : PlayerSummaryRow} (hchecks : p.row.checks = true) (hfree : db.conflicts ⟨db.nextId⟩ p.row = false)
    (hrow : (db.withPlayer now p).summary ⟨db.nextId⟩ = some row) :
    Creates db now fault p (.ok (.created row), db.withPlayer now p)

theorem createPlayer_cases (db : CharacterDb) (now : Int) (fault : Option CreateStage) (p : NewPlayer) :
    Creates db now fault p (db.createPlayer now fault p) := by
  unfold createPlayer
  split
  · exact .failed _ le_rfl
  · rename_i hbegin
    split
    · exact .failed _ le_rfl
    · rename_i hidentity
      -- the id is drawn before anything is checked, and stays drawn when the insert fails
      unfold insertPlayer
      by_cases hlast : i64Max < db.nextId
      · simp only [if_pos hlast]
        exact .failed _ le_rfl
      · simp only [if_neg hlast]
        by_cases hchecks : p.row.checks = true
        · by_cases hconf : db.conflicts ⟨db.nextId⟩ p.row = true
          · simp only [hchecks, hconf, Bool.not_true, Bool.false_eq_true, if_true, if_false]
            exact .conflict ⟨hbegin, hidentity, not_lt.1 hlast⟩ hconf
          · by_cases hprofile : (db.profiles p.row.username).isNone = true
            · simp only [hchecks, hconf, hprofile, Bool.not_true, Bool.false_eq_true, if_true, if_false]
              exact .failed _ (by simp)
            · simp only [hchecks, hconf, hprofile, Bool.not_true, Bool.false_eq_true, if_false]
              split
              · exact .failed _ (by simp)
              · rename_i hrows
                obtain ⟨rfl, hrow⟩ := createRows_spec hrows
                exact .created hchecks (by simpa using hconf) hrow
        · simp only [hchecks, Bool.not_false, if_true]
          exact .failed _ (by simp)

/-- A conflict is answered with the name being taken, whatever it is about. -/
theorem createPlayer_of_conflict (hins : db.Inserts fault) (hchecks : p.row.checks = true)
    (hconf : db.conflicts ⟨db.nextId⟩ p.row = true) : (db.createPlayer now fault p).1 = .ok .nameTaken := by
  obtain ⟨hbegin, hidentity, hid⟩ := hins
  unfold createPlayer insertPlayer
  rw [if_neg hbegin, if_neg hidentity, if_neg (not_lt.2 hid)]
  simp only [hchecks, hconf, Bool.not_true, Bool.false_eq_true, if_true, if_false]

/-! ## Every call keeps the tables -/

theorem Kept.drawnMore (h : db.Kept) {n : Int} (hn : db.nextId ≤ n) : Kept { db with nextId := n } where
  unique := ⟨h.unique.names, h.unique.slots⟩
  checked := h.checked
  drawn id r hr := (h.drawn id r hr).trans_le hn
  progression := h.progression
  runtime := h.runtime

theorem Kept.withPlayer (h : db.Kept) (hchecks : p.row.checks = true) (hfree : db.conflicts ⟨db.nextId⟩ p.row = false) :
    (db.withPlayer now p).Kept := by
  have hcases : ∀ {id r}, (db.withPlayer now p).players.get? id = some r →
      (id = ⟨db.nextId⟩ ∧ r = p.row) ∨ (id ≠ ⟨db.nextId⟩ ∧ db.players.get? id = some r) := by
    intro id r hr
    unfold CharacterDb.withPlayer at hr
    rw [OrdMap.get?_insert] at hr
    split at hr
    · rename_i hid
      exact .inl ⟨hid, (Option.some.inj hr).symm⟩
    · rename_i hid
      exact .inr ⟨hid, hr⟩
  -- nothing active is in the way of the new row
  have hclear : ∀ {id r}, db.players.get? id = some r → r.active = true →
      r.name ≠ p.row.name ∧ ¬ (r.username = p.row.username ∧ r.slot = p.row.slot) := by
    intro id r hr hactive
    have hno : ¬ (db.NameHeld p.name ∨ db.SlotHeld p.username p.slot) := by
      rw [← h.conflicts_iff, hfree]
      decide
    exact ⟨fun hname => hno (.inl ⟨id, r, hr, hactive, hname⟩),
      fun hslot => hno (.inr ⟨id, r, hr, hactive, hslot.1, hslot.2⟩)⟩
  have hrows : ∀ {β : Type} {table : OrdMap PlayerId β} {q : β}, (∀ id q, table.get? id = some q →
      ∃ r, db.players.get? id = some r) → ∀ id q', (table.insert ⟨db.nextId⟩ q).get? id = some q' →
        ∃ r, (db.withPlayer now p).players.get? id = some r := by
    intro β table q htable id q' hq
    unfold CharacterDb.withPlayer
    rw [OrdMap.get?_insert] at hq ⊢
    split at hq
    · rename_i hid
      exact ⟨p.row, if_pos hid⟩
    · rename_i hid
      obtain ⟨r, hr⟩ := htable id q' hq
      exact ⟨r, by rw [if_neg hid, hr]⟩
  constructor
  · constructor
    · intro id id' r r' hr hr' hactive hactive' hname
      obtain ⟨rfl, rfl⟩ | ⟨-, hr⟩ := hcases hr <;> obtain ⟨rfl, rfl⟩ | ⟨-, hr'⟩ := hcases hr'
      · rfl
      · exact absurd hname.symm (hclear hr' hactive').1
      · exact absurd hname (hclear hr hactive).1
      · exact h.unique.names id id' r r' hr hr' hactive hactive' hname
    · intro id id' r r' hr hr' hactive hactive' huser hslot
      obtain ⟨rfl, rfl⟩ | ⟨-, hr⟩ := hcases hr <;> obtain ⟨rfl, rfl⟩ | ⟨-, hr'⟩ := hcases hr'
      · rfl
      · exact absurd ⟨huser.symm, hslot.symm⟩ (hclear hr' hactive').2
      · exact absurd ⟨huser, hslot⟩ (hclear hr hactive).2
      · exact h.unique.slots id id' r r' hr hr' hactive hactive' huser hslot
  · intro id r hr
    obtain ⟨rfl, rfl⟩ | ⟨-, hr⟩ := hcases hr
    · exact hchecks
    · exact h.checked id r hr
  · intro id r hr
    show id.raw < db.nextId + 1
    obtain ⟨rfl, rfl⟩ | ⟨-, hr⟩ := hcases hr
    · exact Int.lt_add_one_of_le le_rfl
    · exact Int.lt_add_one_of_le (h.drawn id r hr).le
  · exact hrows h.progression
  · exact hrows h.runtime

/-- Deleting rows only takes them out of the indexes. -/
theorem Kept.deleted (h : db.Kept) (now : Int) (username : String) (slot : UInt8) :
    Kept { db with
      players := db.players.map fun r =>
        if deletable username slot r then { r with deletedAt := some now } else r } := by
  -- a row that is still active is as it was, and every row was there before
  have hcases : ∀ {id r},
    (db.players.map fun r => if deletable username slot r then { r with deletedAt := some now } else r).get?
      id = some r → ∃ r₀, db.players.get? id = some r₀ ∧ r.slot = r₀.slot ∧ (r.active = true → r = r₀) := by
    intro id r hr
    rw [OrdMap.get?_map, Option.map_eq_some_iff] at hr
    obtain ⟨r₀, hr₀, rfl⟩ := hr
    refine ⟨r₀, hr₀, ?_⟩
    split
    · exact ⟨rfl, fun hactive => by simp [PlayerRow.active] at hactive⟩
    · exact ⟨rfl, fun _ => rfl⟩
  have hrows : ∀ {id}, (∃ r, db.players.get? id = some r) →
      ∃ r, (db.players.map fun r => if deletable username slot r then { r with deletedAt := some now } else r).get?
        id = some r := by
    rintro id ⟨r, hr⟩
    rw [OrdMap.get?_map, hr]
    exact ⟨_, rfl⟩
  constructor
  · constructor
    · intro id id' r r' hr hr' hactive hactive' hname
      obtain ⟨r₀, hr₀, -, heq⟩ := hcases hr
      obtain ⟨r₀', hr₀', -, heq'⟩ := hcases hr'
      cases heq hactive
      cases heq' hactive'
      exact h.unique.names id id' r r' hr₀ hr₀' hactive hactive' hname
    · intro id id' r r' hr hr' hactive hactive' huser hslot
      obtain ⟨r₀, hr₀, -, heq⟩ := hcases hr
      obtain ⟨r₀', hr₀', -, heq'⟩ := hcases hr'
      cases heq hactive
      cases heq' hactive'
      exact h.unique.slots id id' r r' hr₀ hr₀' hactive hactive' huser hslot
  · intro id r hr
    obtain ⟨r₀, hr₀, hslot, -⟩ := hcases hr
    unfold PlayerRow.checks
    rw [hslot]
    exact h.checked id r₀ hr₀
  · intro id r hr
    obtain ⟨r₀, hr₀, -⟩ := hcases hr
    exact h.drawn id r₀ hr₀
  · exact fun id q hq => hrows (h.progression id q hq)
  · exact fun id q hq => hrows (h.runtime id q hq)

theorem step_kept {call : Call} (h : db.Kept) (hstep : db.step call = some after) : after.Kept := by
  cases call with
  | create now fault p =>
    cases hstep
    have hcases := createPlayer_cases db now fault p
    generalize db.createPlayer now fault p = result at hcases
    cases hcases with
    | failed e hn => exact h.drawnMore hn
    | conflict => exact h.drawnMore (by omega)
    | created hchecks hfree => exact h.withPlayer hchecks hfree
  | delete now fault username slot deleteCode =>
    cases hstep
    unfold deletePlayerWithCode
    split
    · exact h
    · split
      · exact h.deleted now username slot
      · exact h

/-! ## What the replies say -/

theorem not_added_of_same (h : SameTables db after) : ¬ Added db after now p := by
  rintro ⟨id, hnone, hplayers, -⟩
  rw [h.players] at hplayers
  have hget := congrArg (fun m => m.get? id) hplayers
  simp only [hnone, OrdMap.get?_insert] at hget
  split at hget
  · cases hget
  · contradiction

/-- A call is truthful exactly if a player is not refused for its slot alone. -/
theorem Kept.truthful_iff (h : db.Kept) (call : Call) : TruthfulCall db call ↔ SlotFree db call := by
  cases call with
  | delete now fault username slot deleteCode => exact Iff.rfl
  | create now fault p =>
    constructor
    · intro htruth hins hslot
      obtain ⟨id, r, hr, hactive, huser, hslot⟩ := hslot
      -- the slot is held by a row, so it is one that the row check lets through
      have hchecks : p.row.checks = true := by
        have hr' := h.checked id r hr
        unfold PlayerRow.checks at hr' ⊢
        rwa [hslot] at hr'
      have hconf := h.conflicts_iff.2 (.inr ⟨id, r, hr, hactive, huser, hslot⟩ : db.NameHeld p.name ∨ _)
      exact htruth.nameTaken (createPlayer_of_conflict hins hchecks hconf)
    · intro hfree
      show Truthful db now p (db.createPlayer now fault p).1 (db.createPlayer now fault p).2
      have hcases := createPlayer_cases db now fault p
      generalize db.createPlayer now fault p = result at hcases
      cases hcases with
      | @failed e n hn =>
        have hsame : SameTables db { db with nextId := n } := ⟨rfl, rfl, rfl⟩
        exact ⟨iff_of_false (by rintro ⟨_, hrow⟩; cases hrow) (not_added_of_same hsame), nofun, fun _ => hsame⟩
      | conflict hins hconf =>
        have hsame : SameTables db { db with nextId := db.nextId + 1 } := ⟨rfl, rfl, rfl⟩
        refine ⟨iff_of_false (by rintro ⟨_, hrow⟩; cases hrow) (not_added_of_same hsame), fun _ => ?_, fun _ => hsame⟩
        exact (h.conflicts_iff.1 hconf).elim id (hfree hins)
      | created hchecks hclear hrow =>
        have hadded : Added db (db.withPlayer now p) now p := ⟨⟨db.nextId⟩, h.fresh, rfl, rfl, rfl⟩
        exact ⟨iff_of_true ⟨_, rfl⟩ hadded, nofun, fun hno => absurd ⟨_, rfl⟩ hno⟩

theorem kept_run : ∀ (calls : List Call) (db : CharacterDb), db.Kept →
    ∃ after, run step db calls = some after ∧ Along step Unique db calls
  | [], db, h => ⟨db, rfl, h.unique⟩
  | call :: calls, db, h => by
    obtain ⟨t, ht⟩ : ∃ t, db.step call = some t := by cases call <;> exact ⟨_, rfl⟩
    obtain ⟨after, hrun, halong⟩ := kept_run calls t (step_kept h ht)
    refine ⟨after, (run_cons_eq_some step).2 ⟨t, ht, hrun⟩, h.unique, fun t' ht' => ?_⟩
    cases ht.symm.trans ht'
    exact halong

/-- From tables that keep their constraints, whatever calls come in whatever order: the indexes hold at every time, and
the replies are true throughout exactly if no player is refused for its slot alone. -/
theorem character_creation_iff (db : CharacterDb) (h : db.Kept) (calls : List Call) :
    Along step Unique db calls ∧ (Meets step TruthfulCall db calls ↔ Meets step SlotFree db calls) := by
  obtain ⟨after, hrun, halong⟩ := kept_run calls db h
  refine ⟨halong, meets_congr (fun db call t hdb ht => ?_) h hrun⟩
  exact ⟨hdb.truthful_iff call, fun _ => step_kept hdb ht⟩

/-! ## The handler -/

inductive CreatePlayerError where
  | genericFailure | nameAlreadyExists
  deriving DecidableEq, Repr

/-- What comes of `RequestCreatePlayer`: a packet for the client, or an error that ends its connection. -/
inductive CreateResponse where
  | resultOk (player : PlayerSummaryRow)
  | resultFail (error : CreatePlayerError)
  | failed (e : DbError)
  deriving DecidableEq, Repr

/-- The arm of the select phase, for a name that is decoded. -/
def requestCreatePlayer (supportsClass : PlayerClass → Bool) (now : Int) (fault : Option CreateStage) (p : NewPlayer)
    (db : CharacterDb) : CreateResponse × CharacterDb :=
  if ¬ (2 ≤ p.name.utf8ByteSize ∧ p.name.utf8ByteSize ≤ 16) then (.resultFail .genericFailure, db)
  else if 4 ≤ p.slot then (.resultFail .genericFailure, db)
  else if !supportsClass p.cls then (.resultFail .genericFailure, db)
  else
    match db.createPlayer now fault p with
    | (.ok (.created player), after) => (.resultOk player, after)
    | (.ok .nameTaken, after) => (.resultFail .nameAlreadyExists, after)
    | (.error e, after) => (.failed e, after)

/-- A client that is told of its name is told so for the name or for the slot, and nothing has changed. -/
theorem Kept.nameAlreadyExists (h : db.Kept) {supportsClass : PlayerClass → Bool}
    (htold : (requestCreatePlayer supportsClass now fault p db).1 = .resultFail .nameAlreadyExists) :
    (db.NameHeld p.name ∨ db.SlotHeld p.username p.slot) ∧
      SameTables db (requestCreatePlayer supportsClass now fault p db).2 := by
  unfold requestCreatePlayer at htold ⊢
  split_ifs at htold ⊢
  -- the request that is refused for its length, its slot or its class is told of nothing
  · cases htold
  · cases htold
  · have hcases := createPlayer_cases db now fault p
    generalize db.createPlayer now fault p = result at hcases htold ⊢
    cases hcases with
    | failed => cases htold
    | conflict _ hconf => exact ⟨h.conflicts_iff.1 hconf, rfl, rfl, rfl⟩
    | created => cases htold
  · cases htold

/-! ## The tables after the migrations -/

def adminRow : PlayerRow := ⟨"admin", 0, "Admin", .warrior, .male, .variantA, none⟩

def guestRow : PlayerRow := ⟨"guest", 0, "Guest", .shaman, .female, .variantB, none⟩

/-- Where the players of the migrations stand: 480.0 and 736.0. -/
def seedRuntime (now : Int) : RuntimeRow :=
  ⟨some "metin2_map_c1", some 0x43f00000, some 0x44380000, none, none, none, .initial, now⟩

def migrated (now : Int) : CharacterDb where
  profiles username := if username ∈ ["admin", "guest", "guest2", "guest3"] then some "1234567" else none
  players := (OrdMap.empty.insert ⟨1⟩ adminRow).insert ⟨2⟩ guestRow
  progression := (OrdMap.empty.insert ⟨1⟩ { newProgression with level := 99 }).insert ⟨2⟩
    { newProgression with level := 35 }
  runtime := (OrdMap.empty.insert ⟨1⟩ (seedRuntime now)).insert ⟨2⟩ (seedRuntime now)
  nextId := 3

theorem get?_seeded {β : Type} {a b q : β}
    (h : ((OrdMap.empty.insert (⟨1⟩ : PlayerId) a).insert ⟨2⟩ b).get? id = some q) :
    (id = ⟨1⟩ ∧ q = a) ∨ (id = ⟨2⟩ ∧ q = b) := by
  rw [OrdMap.get?_insert] at h
  split at h
  · rename_i hid
    exact .inr ⟨hid, (Option.some.inj h).symm⟩
  · rw [OrdMap.get?_insert] at h
    split at h
    · rename_i hid
      exact .inl ⟨hid, (Option.some.inj h).symm⟩
    · cases h

theorem kept_migrated (now : Int) : (migrated now).Kept := by
  constructor
  · constructor
    · intro id id' r r' hr hr' _ _ hname
      obtain ⟨rfl, rfl⟩ | ⟨rfl, rfl⟩ := get?_seeded hr <;> obtain ⟨rfl, rfl⟩ | ⟨rfl, rfl⟩ := get?_seeded hr'
      · rfl
      · exact absurd hname (by decide)
      · exact absurd hname (by decide)
      · rfl
    · intro id id' r r' hr hr' _ _ huser _
      obtain ⟨rfl, rfl⟩ | ⟨rfl, rfl⟩ := get?_seeded hr <;> obtain ⟨rfl, rfl⟩ | ⟨rfl, rfl⟩ := get?_seeded hr'
      · rfl
      · exact absurd huser (by decide)
      · exact absurd huser (by decide)
      · rfl
  · intro id r hr
    obtain ⟨-, rfl⟩ | ⟨-, rfl⟩ := get?_seeded hr
    · rfl
    · rfl
  · intro id r hr
    obtain ⟨rfl, -⟩ | ⟨rfl, -⟩ := get?_seeded hr
    · exact (by decide : (1 : Int) < 3)
    · exact (by decide : (2 : Int) < 3)
  · intro id q hq
    obtain ⟨rfl, -⟩ | ⟨rfl, -⟩ := get?_seeded hq
    · exact ⟨adminRow, rfl⟩
    · exact ⟨guestRow, rfl⟩
  · intro id q hq
    obtain ⟨rfl, -⟩ | ⟨rfl, -⟩ := get?_seeded hq
    · exact ⟨adminRow, rfl⟩
    · exact ⟨guestRow, rfl⟩

def newbie (slot : UInt8) : NewPlayer := ⟨"guest", slot, "Newbie", .warrior, .male, .variantA⟩

/-- A guest makes a second player, deletes the first and makes it anew, while the admin asks for a name that is
taken. -/
def guestCalls : List Call :=
  [.create 1 none (newbie 1), .delete 2 false "guest" 1 "1234567",
    .create 3 none ⟨"admin", 1, "Guest", .ninja, .female, .variantB⟩,
    .create 4 none (newbie 1)]

theorem character_creation_iff_guest : Along step Unique (migrated 0) guestCalls ∧
    (Meets step TruthfulCall (migrated 0) guestCalls ↔ Meets step SlotFree (migrated 0) guestCalls) :=
  character_creation_iff (migrated 0) (kept_migrated 0) guestCalls

/-- A guest who has a player in the first slot is told that the name of another one is taken. Nobody has that name. -/
theorem character_creation_slot : ¬ Meets step TruthfulCall (migrated 0) [.create 1 none (newbie 0)] := by
  rintro ⟨htruth, -⟩
  obtain ⟨id, r, hr, -, hname⟩ := htruth.nameTaken (by decide +kernel)
  obtain ⟨-, rfl⟩ | ⟨-, rfl⟩ := get?_seeded hr
  · exact absurd hname (by decide)
  · exact absurd hname (by decide)

end Statements

end CharacterDb

end Zohar.Characters
