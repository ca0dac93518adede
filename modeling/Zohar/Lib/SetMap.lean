/-
Maps from keys to finite sets that keep no empty set: a relation, stored by one of its sides. A key that is not in the
map has the empty set, so a map is known by its rows.
-/
import Zohar.Lib.OrdMap
import Mathlib.Data.Finset.Basic

namespace Zohar.Lib

structure SetMap (κ β : Type) [LinearOrder κ] where
  map : OrdMap κ (Finset β)
  nonempty : ∀ k s, map.get? k = some s → s.Nonempty

namespace SetMap

variable {κ β : Type} [LinearOrder κ]

def empty : SetMap κ β := ⟨.empty, by simp⟩

def row (m : SetMap κ β) (k : κ) : Finset β := (m.map.get? k).getD ∅

@[simp] theorem row_empty (k : κ) : (empty : SetMap κ β).row k = ∅ := rfl

theorem row_eq_empty_iff {m : SetMap κ β} {k : κ} : m.row k = ∅ ↔ m.map.get? k = none := by
  unfold row
  cases h : m.map.get? k with
  | none => simp
  | some s =>
    have hne : s ≠ ∅ := Finset.nonempty_iff_ne_empty.1 (m.nonempty k s h)
    simp [hne]

variable [DecidableEq β]

/-- The whole set of a key, which leaves the map if it is empty. -/
def setRow (m : SetMap κ β) (k : κ) (s : Finset β) : SetMap κ β :=
  if h : s = ∅ then
    ⟨m.map.erase k, by
      intro j t hj
      exact m.nonempty j t (OrdMap.get?_erase_eq_some_iff.1 hj).2⟩
  else
    ⟨m.map.insert k s, by
      intro j t hj
      rw [OrdMap.get?_insert] at hj
      split at hj
      · cases hj; exact Finset.nonempty_iff_ne_empty.2 h
      · exact m.nonempty j t hj⟩

def insert (m : SetMap κ β) (k : κ) (x : β) : SetMap κ β := m.setRow k (Insert.insert x (m.row k))

def remove (m : SetMap κ β) (k : κ) (x : β) : SetMap κ β := m.setRow k ((m.row k).erase x)

/-- The value goes into the set of every key of the list. -/
def insertAll (m : SetMap κ β) (ks : List κ) (x : β) : SetMap κ β := ks.foldl (fun m k => m.insert k x) m

def removeAll (m : SetMap κ β) (ks : List κ) (x : β) : SetMap κ β := ks.foldl (fun m k => m.remove k x) m

theorem row_setRow (m : SetMap κ β) (k j : κ) (s : Finset β) : (m.setRow k s).row j = if j = k then s else m.row j := by
  unfold setRow row
  split
  · rename_i hs
    simp only [OrdMap.get?_erase]
    split
    · rw [hs]; rfl
    · rfl
  · simp only [OrdMap.get?_insert]
    split <;> rfl

theorem mem_row_insert {m : SetMap κ β} {k j : κ} {x y : β} :
    y ∈ (m.insert k x).row j ↔ y ∈ m.row j ∨ (j = k ∧ y = x) := by
  rw [insert, row_setRow]
  split
  · rename_i h; subst h
    simp [or_comm]
  · rename_i h
    simp [h]

theorem mem_row_remove {m : SetMap κ β} {k j : κ} {x y : β} :
    y ∈ (m.remove k x).row j ↔ y ∈ m.row j ∧ ¬(j = k ∧ y = x) := by
  rw [remove, row_setRow]
  split
  · rename_i h; subst h
    simp [and_comm]
  · rename_i h
    simp [h]

theorem mem_row_insertAll {j : κ} {x y : β} : ∀ {ks : List κ} {m : SetMap κ β},
    y ∈ (m.insertAll ks x).row j ↔ y ∈ m.row j ∨ (j ∈ ks ∧ y = x)
  | [], m => by simp [insertAll]
  | k :: ks, m => by
    rw [insertAll, List.foldl_cons, ← insertAll, mem_row_insertAll, mem_row_insert, List.mem_cons]
    tauto

theorem mem_row_removeAll {j : κ} {x y : β} : ∀ {ks : List κ} {m : SetMap κ β},
    y ∈ (m.removeAll ks x).row j ↔ y ∈ m.row j ∧ ¬(j ∈ ks ∧ y = x)
  | [], m => by simp [removeAll]
  | k :: ks, m => by
    rw [removeAll, List.foldl_cons, ← removeAll, mem_row_removeAll, mem_row_remove, List.mem_cons]
    tauto

/-! ## The entries

The same operations on a map that promises nothing, as code writes them that takes its sets out of the map, changes them
in place and drops the ones that have become empty. -/

/-- `map.entry(k).or_default().insert(x)` -/
def insertAt (m : OrdMap κ (Finset β)) (k : κ) (x : β) : OrdMap κ (Finset β) :=
  m.insert k (Insert.insert x ((m.get? k).getD ∅))

/-- Takes a value out of the set of a key, and the key out of the map if the set is empty then. -/
def removeAt (m : OrdMap κ (Finset β)) (k : κ) (x : β) : OrdMap κ (Finset β) :=
  match m.get? k with
  | none => m
  | some s => if s.erase x = ∅ then m.erase k else m.insert k (s.erase x)

theorem map_setRow (m : SetMap κ β) (k : κ) (s : Finset β) :
    (m.setRow k s).map = if s = ∅ then m.map.erase k else m.map.insert k s := by
  unfold setRow
  split <;> rfl

theorem setRow_row (m : SetMap κ β) (k : κ) : (m.setRow k (m.row k)).map = m.map := by
  rw [map_setRow]
  split
  · rename_i h
    exact OrdMap.erase_of_get?_none (row_eq_empty_iff.1 h)
  · rename_i h
    apply OrdMap.insert_of_get?_some
    cases hget : m.map.get? k with
    | none => exact absurd (row_eq_empty_iff.2 hget) h
    | some s => simp [row, hget]

theorem map_insert (m : SetMap κ β) (k : κ) (x : β) : (m.insert k x).map = insertAt m.map k x := by
  rw [insert, map_setRow, if_neg (Finset.insert_ne_empty x _)]
  rfl

theorem map_remove (m : SetMap κ β) (k : κ) (x : β) : (m.remove k x).map = removeAt m.map k x := by
  rw [remove, map_setRow]
  unfold removeAt
  cases h : m.map.get? k with
  | none =>
    have hrow : m.row k = ∅ := row_eq_empty_iff.2 h
    rw [hrow, Finset.erase_empty, if_pos rfl]
    exact OrdMap.erase_of_get?_none h
  | some s =>
    have hrow : m.row k = s := by simp [row, h]
    rw [hrow]

theorem map_insertAll (x : β) : ∀ (ks : List κ) (m : SetMap κ β),
    (m.insertAll ks x).map = ks.foldl (fun m k => insertAt m k x) m.map
  | [], _ => rfl
  | k :: ks, m => by
    rw [insertAll, List.foldl_cons, ← insertAll, map_insertAll x ks, map_insert, List.foldl_cons]

theorem map_removeAll (x : β) : ∀ (ks : List κ) (m : SetMap κ β),
    (m.removeAll ks x).map = ks.foldl (fun m k => removeAt m k x) m.map
  | [], _ => rfl
  | k :: ks, m => by
    rw [removeAll, List.foldl_cons, ← removeAll, map_removeAll x ks, map_remove, List.foldl_cons]

/-- Taking out what is not there changes nothing. -/
theorem map_remove_of_notMem {m : SetMap κ β} {k : κ} {x : β} (h : x ∉ m.row k) : (m.remove k x).map = m.map := by
  rw [remove, Finset.erase_eq_of_notMem h, setRow_row]

end SetMap

end Zohar.Lib
