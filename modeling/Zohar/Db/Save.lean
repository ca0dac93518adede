/-
What a save says and what it did. The statement of `save_player_snapshot` updates the runtime row by player and
epoch, and the progression row by the runtime row it updated; whether the player is active is looked up beside
these updates and decides only the answer. The exit's statement has the same lookup in its update.
-/
import Zohar.Db.Queries
import Mathlib.Tactic

namespace Zohar.Db

/-! ## The rows a save updates -/

/-- `updated_runtime` returns a row: the stored epoch is the snapshot's. -/
def updatedRuntime (s : PlayerSnapshot) (db : GameDb) : Bool :=
  (db.runtime s.playerId).any fun r => r.runtimeEpoch = s.runtime.runtimeEpoch

/-- `updated_progression` returns a row. -/
def updatedProgression (s : PlayerSnapshot) (db : GameDb) : Bool :=
  updatedRuntime s db && (db.progression s.playerId).isSome

/-- The statement reaches the server and passes the constraints; otherwise it is rolled back. -/
def saveCommits (now : Int) (fault : Bool) (s : PlayerSnapshot) (db : GameDb) : Bool :=
  !fault && (saveStatement now s db).isOk

def wroteRuntime (now : Int) (fault : Bool) (s : PlayerSnapshot) (db : GameDb) : Bool :=
  saveCommits now fault s db && updatedRuntime s db

def wroteProgression (now : Int) (fault : Bool) (s : PlayerSnapshot) (db : GameDb) : Bool :=
  saveCommits now fault s db && updatedProgression s db

section

variable {now : Int} {fault : Bool} {s : PlayerSnapshot} {db : GameDb}

theorem updatedRuntime_iff :
    updatedRuntime s db = true ↔ ∃ r, db.runtime s.playerId = some r ∧ r.runtimeEpoch = s.runtime.runtimeEpoch := by
  unfold updatedRuntime
  cases db.runtime s.playerId with
  | none => simp
  | some r => simp

/-- The only constraint in the way of a save that finds its epoch is the one on the progression row it writes. -/
theorem saveCommits_iff (hu : updatedRuntime s db = true) :
    saveCommits now fault s db = true ↔ fault = false ∧ ∀ q, db.progression s.playerId = some q →
      (q.write s).checks = true := by
  obtain ⟨r, hr, he⟩ := updatedRuntime_iff.1 hu
  unfold saveCommits saveStatement
  simp only [hr, if_pos he]
  cases hq : db.progression s.playerId with
  | none => cases fault <;> simp [Except.isOk, Except.toBool]
  | some q => cases fault <;> cases hc : (q.write s).checks <;> simp [Except.isOk, Except.toBool, hc]

/-- A save that does not find its epoch changes nothing and writes nothing. -/
theorem savePlayerSnapshot_of_not_updated (h : updatedRuntime s db = false) :
    (savePlayerSnapshot now fault s db).2 = db ∧ (savePlayerSnapshot now fault s db).1 ≠ .ok .saved ∧
      wroteRuntime now fault s db = false ∧ wroteProgression now fault s db = false := by
  have hw : wroteRuntime now fault s db = false ∧ wroteProgression now fault s db = false := by
    unfold wroteRuntime wroteProgression updatedProgression
    rw [h, Bool.false_and, Bool.and_false]
    exact ⟨rfl, rfl⟩
  have hne : ∀ r, db.runtime s.playerId = some r → r.runtimeEpoch ≠ s.runtime.runtimeEpoch := by
    rintro r hr he
    exact absurd (updatedRuntime_iff.2 ⟨r, hr, he⟩) (by simp [h])
  refine ⟨?_, ?_, hw⟩
  · rcases savePlayerSnapshot_cases now fault s db with hdb | ⟨r, hr, he, _⟩
    · exact hdb
    · exact absurd he (hne r hr)
  · intro hsaved
    obtain ⟨_, _, r, _, hr, he, _⟩ := savePlayerSnapshot_saved.1 hsaved
    exact hne r hr he

/-- A save that fails by a constraint or on the way changes nothing. -/
theorem savePlayerSnapshot_of_not_commits (h : saveCommits now fault s db = false) :
    (savePlayerSnapshot now fault s db).2 = db ∧
    (∃ context, (savePlayerSnapshot now fault s db).1 = .error (.sqlx context)) ∧
      wroteRuntime now fault s db = false ∧ wroteProgression now fault s db = false := by
  have hw : wroteRuntime now fault s db = false ∧ wroteProgression now fault s db = false := by
    unfold wroteRuntime wroteProgression
    rw [h]
    exact ⟨rfl, rfl⟩
  unfold saveCommits at h
  unfold savePlayerSnapshot
  cases fault with
  | true => exact ⟨rfl, ⟨_, rfl⟩, hw⟩
  | false =>
    rw [Bool.not_false, Bool.true_and] at h
    rw [if_neg Bool.false_ne_true]
    cases hst : saveStatement now s db with
    | ok a => rw [hst] at h; cases h
    | error e =>
      refine ⟨rfl, ?_, hw⟩
      -- the only error of the statement is the constraint on the progression row
      unfold saveStatement at hst
      dsimp only at hst
      split at hst
      · split at hst
        · split at hst
          · split at hst
            · cases hst
            · cases hst; exact ⟨_, rfl⟩
          · cases hst
        · cases hst
      · cases hst

/-- A save that finds its epoch and commits has written the runtime row, and with it the progression row if there is
one; whether the player is active shows only in the answer. -/
theorem savePlayerSnapshot_of_commits (hc : saveCommits now fault s db = true) (hu : updatedRuntime s db = true) :
    wroteRuntime now fault s db = true ∧ wroteProgression now fault s db = (db.progression s.playerId).isSome ∧
      (savePlayerSnapshot now fault s db).1 =
        if db.active s.playerId then .ok (if (db.progression s.playerId).isSome then .saved else .staleOwner)
        else .error (.invariant "active player should exist when saving player snapshot") := by
  refine ⟨?_, ?_, ?_⟩
  · rw [wroteRuntime, hc, hu, Bool.and_self]
  · rw [wroteProgression, updatedProgression, hc, hu, Bool.true_and, Bool.true_and]
  · unfold saveCommits at hc
    unfold savePlayerSnapshot
    cases fault with
    | true => cases hc
    | false =>
      rw [Bool.not_false, Bool.true_and] at hc
      rw [if_neg Bool.false_ne_true]
      obtain ⟨r, hr, he⟩ := updatedRuntime_iff.1 hu
      unfold saveStatement at hc ⊢
      simp only [hr, if_pos he] at hc ⊢
      cases hq : db.progression s.playerId with
      | none => cases db.active s.playerId <;> simp
      | some q =>
        simp only [hq] at hc ⊢
        cases hk : (q.write s).checks with
        | false => rw [hk, if_neg Bool.false_ne_true] at hc; cases hc
        | true => cases db.active s.playerId <;> simp

/-- The rows after a save: the ones it wrote with the snapshot's values, the others as they were. -/
theorem savePlayerSnapshot_rows (now : Int) (fault : Bool) (s : PlayerSnapshot) (db : GameDb) :
    (savePlayerSnapshot now fault s db).2.runtime s.playerId =
        (if wroteRuntime now fault s db then (db.runtime s.playerId).map (·.write now s.runtime)
          else db.runtime s.playerId) ∧
      (savePlayerSnapshot now fault s db).2.progression s.playerId =
        (if wroteProgression now fault s db then (db.progression s.playerId).map (·.write s)
          else db.progression s.playerId) := by
  by_cases hc : saveCommits now fault s db = true
  swap
  · obtain ⟨hdb, _, hr, hp⟩ := savePlayerSnapshot_of_not_commits (Bool.not_eq_true _ ▸ hc)
    rw [hdb, hr, hp]
    exact ⟨rfl, rfl⟩
  by_cases hu : updatedRuntime s db = true
  swap
  · obtain ⟨hdb, _, hr, hp⟩ := @savePlayerSnapshot_of_not_updated now fault s db (Bool.not_eq_true _ ▸ hu)
    rw [hdb, hr, hp]
    exact ⟨rfl, rfl⟩
  obtain ⟨hr, hp, _⟩ := savePlayerSnapshot_of_commits hc hu
  obtain ⟨hf, hk⟩ := (saveCommits_iff hu).1 hc
  obtain ⟨r, hrow, he⟩ := updatedRuntime_iff.1 hu
  rw [hr, hp]
  unfold savePlayerSnapshot saveStatement
  simp only [hf, hrow, if_pos he]
  cases hq : db.progression s.playerId with
  | none => cases db.active s.playerId <;> simp [hq]
  | some q => cases db.active s.playerId <;> simp [hk q hq]

/-! ## The answer and the rows -/

/-- The answer of a save tells what it did to the rows: it says `Saved` exactly where both rows were written, and where
it says `StaleOwner` or fails with an invariant neither was touched. -/
structure TruthfulSave (now : Int) (fault : Bool) (s : PlayerSnapshot) (db : GameDb) : Prop where
  saved : (savePlayerSnapshot now fault s db).1 = .ok .saved ↔
    wroteRuntime now fault s db = true ∧ wroteProgression now fault s db = true
  refused : ((savePlayerSnapshot now fault s db).1 = .ok .staleOwner ∨
      ∃ message, (savePlayerSnapshot now fault s db).1 = .error (.invariant message)) →
    wroteRuntime now fault s db = false ∧ wroteProgression now fault s db = false ∧
      (savePlayerSnapshot now fault s db).2.runtime s.playerId = db.runtime s.playerId ∧
      (savePlayerSnapshot now fault s db).2.progression s.playerId = db.progression s.playerId

/-- A save is truthful exactly when it writes both rows or none. -/
theorem truthfulSave_iff_all_or_none (now : Int) (fault : Bool) (s : PlayerSnapshot) (db : GameDb) :
    TruthfulSave now fault s db ↔
      (saveCommits now fault s db = true → updatedRuntime s db = true →
        db.active s.playerId = true ∧ (db.progression s.playerId).isSome = true) := by
  by_cases hc : saveCommits now fault s db = true
  swap
  · rw [Bool.not_eq_true] at hc
    obtain ⟨hdb, ⟨context, he⟩, hr, hp⟩ := savePlayerSnapshot_of_not_commits hc
    refine iff_of_true ⟨?_, ?_⟩ (by simp [hc])
    · rw [he, hr]; simp
    · rw [he]; simp
  by_cases hu : updatedRuntime s db = true
  swap
  · rw [Bool.not_eq_true] at hu
    obtain ⟨hdb, hne, hr, hp⟩ := @savePlayerSnapshot_of_not_updated now fault s db hu
    refine iff_of_true ⟨iff_of_false hne (by simp [hr]), fun _ => ⟨hr, hp, by rw [hdb], by rw [hdb]⟩⟩ (by simp [hu])
  obtain ⟨hr, hp, hres⟩ := savePlayerSnapshot_of_commits hc hu
  constructor
  · rintro h _ _
    by_contra hno
    -- the runtime row was written, so the answer must be `Saved`
    have hsaved : (savePlayerSnapshot now fault s db).1 = .ok .saved := by
      by_contra hne
      have href : (savePlayerSnapshot now fault s db).1 = .ok .staleOwner ∨
          ∃ message, (savePlayerSnapshot now fault s db).1 = .error (.invariant message) := by
        rw [hres] at hne ⊢
        cases ha : db.active s.playerId <;> cases hq : (db.progression s.playerId).isSome <;> simp_all
      exact absurd (hr.symm.trans (h.refused href).1) (by simp)
    obtain ⟨_, ha, _, q, _, _, hq, _⟩ := savePlayerSnapshot_saved.1 hsaved
    exact hno ⟨ha, by rw [hq]; rfl⟩
  · intro h
    obtain ⟨ha, hq⟩ := h hc hu
    rw [ha, hq, if_pos rfl, if_pos rfl] at hres
    exact ⟨by simp [hres, hr, hp, hq], by simp [hres]⟩

end

/-- A save is truthful exactly when, if it reaches the server and finds the stored epoch, the player has a progression
row and is active, or the row fails its constraint. -/
theorem truthfulSave_iff (now : Int) (fault : Bool) (s : PlayerSnapshot) (db : GameDb) :
    TruthfulSave now fault s db ↔
      (fault = false → ∀ r, db.runtime s.playerId = some r → r.runtimeEpoch = s.runtime.runtimeEpoch →
        ∃ q, db.progression s.playerId = some q ∧ ((q.write s).checks = true → db.active s.playerId = true)) := by
  rw [truthfulSave_iff_all_or_none]
  constructor
  · rintro h hf r hr he
    have hu : updatedRuntime s db = true := updatedRuntime_iff.2 ⟨r, hr, he⟩
    cases hq : db.progression s.playerId with
    | none =>
      have hc : saveCommits now fault s db = true := (saveCommits_iff hu).2 ⟨hf, by simp [hq]⟩
      have := (h hc hu).2
      rw [hq] at this
      cases this
    | some q =>
      refine ⟨q, rfl, fun hk => (h ((saveCommits_iff hu).2 ⟨hf, ?_⟩) hu).1⟩
      rintro q' hq'
      rw [hq] at hq'
      cases hq'
      exact hk
  · rintro h hc hu
    obtain ⟨r, hr, he⟩ := updatedRuntime_iff.1 hu
    obtain ⟨hf, hk⟩ := (saveCommits_iff hu).1 hc
    obtain ⟨q, hq, ha⟩ := h hf r hr he
    exact ⟨ha (hk q hq), by rw [hq]; rfl⟩

/-- A level 5 player with one runtime row, deleted or not, with or without a progression row. -/
def fifthLevelDb (deletedAt : Option Int) (progression : Option ProgressionRow) : GameDb where
  players := fun _ => some ⟨"admin", deletedAt⟩
  runtime := fun _ => some ⟨some "metin2_map_a1", some 0, some 0, some 760, some 200, some 100, .initial, 0⟩
  progression := fun _ => progression
  sessions := fun _ => none

def woundedSnapshot : PlayerSnapshot :=
  ⟨⟨⟨7⟩, .initial, "metin2_map_a1", ⟨0, 0⟩, ⟨0⟩, some 300, some 200, some 100⟩, ⟨6, 0, ⟨0, 0, 0, 0⟩, 0⟩⟩

/-- The save of a deleted player fails with an invariant and has written both rows; the save of a player without a
progression row says `StaleOwner` and has written the runtime row. -/
theorem save_refused_has_written :
    let deleted := fifthLevelDb (some 1) (some ⟨5, 0, 0, 0, 0, 0, 0, 0⟩)
    let bare := fifthLevelDb none none
    (savePlayerSnapshot 9 false woundedSnapshot deleted).1 =
        .error (.invariant "active player should exist when saving player snapshot") ∧
      ((savePlayerSnapshot 9 false woundedSnapshot deleted).2.runtime ⟨7⟩).map RuntimeRow.currentHp = some (some 300) ∧
      ((savePlayerSnapshot 9 false woundedSnapshot deleted).2.progression ⟨7⟩).map ProgressionRow.level = some 6 ∧
      (savePlayerSnapshot 9 false woundedSnapshot bare).1 = .ok .staleOwner ∧
      ((savePlayerSnapshot 9 false woundedSnapshot bare).2.runtime ⟨7⟩).map RuntimeRow.currentHp = some (some 300) ∧
      ¬ TruthfulSave 9 false woundedSnapshot deleted ∧ ¬ TruthfulSave 9 false woundedSnapshot bare := by
  refine ⟨by decide, by decide, by decide, by decide, by decide, fun h => ?_, fun h => ?_⟩
  · exact absurd (h.refused (.inr ⟨_, rfl⟩)).1 (by decide)
  · exact absurd (h.refused (.inl rfl)).1 (by decide)

end Zohar.Db
