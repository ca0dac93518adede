/-
Finite maps over a linear order, kept as a list of entries with strictly increasing keys: the
abstract content of an ordered tree map. The order of the keys is a field, so every map has one
representation and two maps with the same lookups are equal; iteration goes up the keys.
-/
import Mathlib.Order.Defs.LinearOrder
import Mathlib.Tactic

namespace Zohar.Lib

variable {κ β : Type} [LinearOrder κ]

/-! ## Sorted entry lists -/

/-- Insert into a key-ordered list, replacing the entry of the same key. -/
def insertEntry (k : κ) (v : β) : List (κ × β) → List (κ × β)
  | [] => [(k, v)]
  | e :: es => if k < e.1 then (k, v) :: e :: es else if k = e.1 then (k, v) :: es else e :: insertEntry k v es

/-- The value of the first entry with key `k`. -/
def lookupEntry (k : κ) : List (κ × β) → Option β
  | [] => none
  | e :: es => if k = e.1 then some e.2 else lookupEntry k es

def KeysSorted (es : List (κ × β)) : Prop := es.Pairwise fun a b => a.1 < b.1

theorem mem_insertEntry {k : κ} {v : β} {e : κ × β} :
    ∀ {es : List (κ × β)}, e ∈ insertEntry k v es → e = (k, v) ∨ e ∈ es
  | [], h => by simpa [insertEntry] using h
  | x :: es, h => by
    simp only [insertEntry] at h
    split at h
    · simpa using h
    · split at h
      · rcases List.mem_cons.1 h with h | h
        · exact .inl h
        · exact .inr (List.mem_cons_of_mem _ h)
      · rcases List.mem_cons.1 h with rfl | h
        · exact .inr (List.mem_cons_self ..)
        · exact (mem_insertEntry h).imp id (List.mem_cons_of_mem _)

theorem keysSorted_insertEntry (k : κ) (v : β) :
    ∀ {es : List (κ × β)}, KeysSorted es → KeysSorted (insertEntry k v es)
  | [], _ => List.pairwise_singleton _ _
  | x :: es, h => by
    obtain ⟨hx, hes⟩ := List.pairwise_cons.1 h
    simp only [insertEntry]
    split
    · rename_i hk
      refine List.pairwise_cons.2 ⟨fun b hb => ?_, h⟩
      rcases List.mem_cons.1 hb with rfl | hb
      · exact hk
      · exact lt_trans hk (hx b hb)
    · rename_i hk
      split
      · rename_i he
        subst he
        exact List.pairwise_cons.2 ⟨hx, hes⟩
      · rename_i he
        refine List.pairwise_cons.2 ⟨fun b hb => ?_, keysSorted_insertEntry k v hes⟩
        rcases mem_insertEntry hb with rfl | hb
        · exact lt_of_le_of_ne (not_lt.1 hk) (Ne.symm he)
        · exact hx b hb

theorem lookupEntry_insertEntry (k k' : κ) (v : β) :
    ∀ es : List (κ × β), lookupEntry k' (insertEntry k v es) = if k' = k then some v else lookupEntry k' es
  | [] => by simp [insertEntry, lookupEntry]
  | x :: es => by
    simp only [insertEntry]
    split
    · simp [lookupEntry]
    · split
      · rename_i he
        subst he
        simp only [lookupEntry]
        split <;> rfl
      · rename_i he
        simp only [lookupEntry, lookupEntry_insertEntry k k' v es]
        split
        · rename_i h
          subst h
          rw [if_neg (Ne.symm he)]
        · rfl

theorem lookupEntry_filter (k k' : κ) :
    ∀ es : List (κ × β), lookupEntry k' (es.filter fun e => decide (e.1 ≠ k)) = if k' = k then none
      else lookupEntry k' es
  | [] => by simp [lookupEntry]
  | x :: es => by
    have ih := lookupEntry_filter k k' es
    by_cases hx : x.1 = k
    · rw [List.filter_cons_of_neg (by simpa using hx), ih]
      simp only [lookupEntry, hx]
      split <;> simp_all
    · rw [List.filter_cons_of_pos (by simpa using hx)]
      simp only [lookupEntry, ih]
      split
      · rename_i h; subst h; simp [hx]
      · rfl

theorem lookupEntry_eq_some_iff {k : κ} {v : β} :
    ∀ {es : List (κ × β)}, KeysSorted es → (lookupEntry k es = some v ↔ (k, v) ∈ es)
  | [], _ => by simp [lookupEntry]
  | x :: es, h => by
    obtain ⟨hx, hes⟩ := List.pairwise_cons.1 h
    simp only [lookupEntry]
    split
    · rename_i hk
      subst hk
      constructor
      · rintro h; cases h; exact List.mem_cons_self ..
      · intro hm
        rcases List.mem_cons.1 hm with hm | hm
        · rw [← hm]
        · exact absurd (hx _ hm) (lt_irrefl _)
    · rename_i hk
      rw [lookupEntry_eq_some_iff hes, List.mem_cons]
      constructor
      · exact .inr
      · rintro (rfl | h)
        · exact absurd rfl hk
        · exact h

/-- Sorted entry lists with the same lookups are equal. -/
theorem entries_ext {es fs : List (κ × β)} (he : KeysSorted es) (hf : KeysSorted fs)
    (h : ∀ k, lookupEntry k es = lookupEntry k fs) : es = fs := by
  have hm : ∀ e, e ∈ es ↔ e ∈ fs := by
    rintro ⟨k, v⟩
    rw [← lookupEntry_eq_some_iff he, ← lookupEntry_eq_some_iff hf, h]
  have nodup : ∀ {gs : List (κ × β)}, KeysSorted gs → gs.Nodup :=
    fun hg => hg.imp fun hlt he => absurd (congrArg Prod.fst he) (ne_of_lt hlt)
  exact List.Perm.eq_of_pairwise (fun a b _ _ hab hba => absurd hab (not_lt.2 hba.le)) he hf
    ((List.perm_ext_iff_of_nodup (nodup he) (nodup hf)).2 hm)

/-! ## Maps -/

/-- A finite map with its entries in key order. -/
structure OrdMap (κ β : Type) [LinearOrder κ] where
  entries : List (κ × β)
  sorted : KeysSorted entries

namespace OrdMap

def empty : OrdMap κ β := ⟨[], List.Pairwise.nil⟩

def get? (m : OrdMap κ β) (k : κ) : Option β := lookupEntry k m.entries

def insert (m : OrdMap κ β) (k : κ) (v : β) : OrdMap κ β :=
  ⟨insertEntry k v m.entries, keysSorted_insertEntry k v m.sorted⟩

def erase (m : OrdMap κ β) (k : κ) : OrdMap κ β :=
  ⟨m.entries.filter fun e => decide (e.1 ≠ k), m.sorted.filter _⟩

def keys (m : OrdMap κ β) : List κ := m.entries.map (·.1)

def values (m : OrdMap κ β) : List β := m.entries.map (·.2)

def map {γ : Type} (f : β → γ) (m : OrdMap κ β) : OrdMap κ γ where
  entries := m.entries.map fun e => (e.1, f e.2)
  sorted := by
    unfold KeysSorted
    rw [List.pairwise_map]
    exact m.sorted

/-- The greatest key. -/
def lastKey? (m : OrdMap κ β) : Option κ := m.keys.getLast?

@[simp] theorem get?_empty (k : κ) : (empty : OrdMap κ β).get? k = none := rfl

theorem get?_insert (m : OrdMap κ β) (k k' : κ) (v : β) :
    (m.insert k v).get? k' = if k' = k then some v else m.get? k' :=
  lookupEntry_insertEntry k k' v m.entries

theorem get?_erase (m : OrdMap κ β) (k k' : κ) : (m.erase k).get? k' = if k' = k then none else m.get? k' :=
  lookupEntry_filter k k' m.entries

theorem get?_map {γ : Type} (f : β → γ) (m : OrdMap κ β) (k : κ) : (m.map f).get? k = (m.get? k).map f := by
  show lookupEntry k (m.entries.map fun e => (e.1, f e.2)) = (lookupEntry k m.entries).map f
  induction m.entries with
  | nil => rfl
  | cons e es ih =>
    rw [List.map_cons, lookupEntry, lookupEntry]
    split
    · rfl
    · exact ih

/-- Who is left after an erasure was there before it, and is someone else. -/
theorem get?_erase_eq_some_iff {m : OrdMap κ β} {k k' : κ} {v : β} :
    (m.erase k).get? k' = some v ↔ k' ≠ k ∧ m.get? k' = some v := by
  rw [get?_erase]
  split
  · rename_i h
    simp [h]
  · rename_i h
    simp [h]

theorem get?_eq_some_iff {m : OrdMap κ β} {k : κ} {v : β} : m.get? k = some v ↔ (k, v) ∈ m.entries :=
  lookupEntry_eq_some_iff m.sorted

theorem mem_keys_iff {m : OrdMap κ β} {k : κ} : k ∈ m.keys ↔ (m.get? k).isSome := by
  simp only [keys, List.mem_map, Option.isSome_iff_exists, get?_eq_some_iff]
  constructor
  · rintro ⟨⟨_, v⟩, hm, rfl⟩; exact ⟨v, hm⟩
  · rintro ⟨v, hm⟩; exact ⟨(k, v), hm, rfl⟩

theorem keys_pairwise (m : OrdMap κ β) : m.keys.Pairwise (· < ·) := List.pairwise_map.2 m.sorted

theorem ext_get? {m n : OrdMap κ β} (h : ∀ k, m.get? k = n.get? k) : m = n := by
  obtain ⟨es, he⟩ := m
  obtain ⟨fs, hf⟩ := n
  cases entries_ext he hf h
  rfl

theorem erase_of_get?_none {m : OrdMap κ β} {k : κ} (h : m.get? k = none) : m.erase k = m := by
  apply ext_get?
  intro j
  rw [get?_erase]
  split
  · rename_i hj; rw [hj, h]
  · rfl

theorem insert_of_get?_some {m : OrdMap κ β} {k : κ} {v : β} (h : m.get? k = some v) : m.insert k v = m := by
  apply ext_get?
  intro j
  rw [get?_insert]
  split
  · rename_i hj; rw [hj, h]
  · rfl

/-! ## Counting -/

/-- The entries after an insertion are the new one and those of the other keys. -/
theorem insertEntry_perm (k : κ) (v : β) : ∀ {es : List (κ × β)}, KeysSorted es →
    (insertEntry k v es).Perm ((k, v) :: es.filter fun e => decide (e.1 ≠ k))
  | [], _ => .refl _
  | x :: es, h => by
    obtain ⟨hx, hes⟩ := List.pairwise_cons.1 h
    simp only [insertEntry]
    split
    · rename_i hk
      rw [List.filter_eq_self.2]
      intro e he
      rcases List.mem_cons.1 he with rfl | he
      · simpa using ne_of_gt hk
      · simpa using ne_of_gt (lt_trans hk (hx e he))
    · split
      · rename_i hk
        subst hk
        rw [List.filter_cons_of_neg (by simp), List.filter_eq_self.2]
        intro e he
        simpa using ne_of_gt (hx e he)
      · rename_i hk
        rw [List.filter_cons_of_pos (by simpa using Ne.symm hk)]
        exact ((insertEntry_perm k v hes).cons x).trans (.swap ..)

/-- How many entries have a value with the property. -/
def count (m : OrdMap κ β) (p : β → Bool) : Nat := m.entries.countP fun e => p e.2

@[simp] theorem count_empty (p : β → Bool) : (empty : OrdMap κ β).count p = 0 := rfl

theorem count_insert (m : OrdMap κ β) (k : κ) (v : β) (p : β → Bool) :
    (m.insert k v).count p = (m.erase k).count p + (p v).toNat := by
  unfold count
  rw [show (m.insert k v).entries = insertEntry k v m.entries from rfl, (insertEntry_perm k v m.sorted).countP_eq,
    List.countP_cons]
  cases p v <;> rfl

theorem count_of_get?_some {m : OrdMap κ β} {k : κ} {v : β} (h : m.get? k = some v) (p : β → Bool) :
    m.count p = (m.erase k).count p + (p v).toNat := by
  rw [← count_insert, insert_of_get?_some h]

end OrdMap

end Zohar.Lib
