/-
Rows gathered by key in one pass: the first row of a key starts its accumulator, and each later one extends it. What a
key has gathered in the end is the fold over its own rows.
-/
import Mathlib.Data.List.MinMax
import Zohar.Lib.OrdMap

namespace Zohar.Lib

variable {κ ρ β γ : Type} [LinearOrder κ]

/-! ## Gathering -/

def gather (key : ρ → κ) (f : Option β → ρ → β) (m : OrdMap κ β) (rows : List ρ) : OrdMap κ β :=
  rows.foldl (fun m r => m.insert (key r) (f (m.get? (key r)) r)) m

variable {key : ρ → κ} {f : Option β → ρ → β}

theorem get?_gather (k : κ) : ∀ (rows : List ρ) (m : OrdMap κ β),
    (gather key f m rows).get? k = (rows.filter fun r => key r = k).foldl (fun o r => some (f o r)) (m.get? k)
  | [], m => rfl
  | r :: rows, m => by
    have ih := get?_gather k rows (m.insert (key r) (f (m.get? (key r)) r))
    rw [OrdMap.get?_insert] at ih
    by_cases hk : key r = k
    · rw [if_pos hk.symm] at ih
      rw [List.filter_cons_of_pos (by simpa using hk), List.foldl_cons, ← hk]
      rw [← hk] at ih
      exact ih
    · rw [if_neg (Ne.symm hk)] at ih
      rw [List.filter_cons_of_neg (by simpa using hk)]
      exact ih

theorem foldl_some_isSome (rows : List ρ) (o : Option β) :
    (rows.foldl (fun o r => some (f o r)) o).isSome = (o.isSome || !rows.isEmpty) := by
  induction rows generalizing o with
  | nil => simp
  | cons r rows ih =>
    rw [List.foldl_cons, ih]
    simp

/-- A key has something gathered exactly if it has a row. -/
theorem gather_isSome_iff {rows : List ρ} {k : κ} :
    ((gather key f .empty rows).get? k).isSome = true ↔ ∃ r ∈ rows, key r = k := by
  rw [get?_gather, foldl_some_isSome, OrdMap.get?_empty]
  simp [List.filter_eq_nil_iff]

/-- Where the rows of a key commute, the order of all rows is of no account. -/
theorem gather_perm (hcomm : ∀ o r s, f (some (f o r)) s = f (some (f o s)) r) {rows rows' : List ρ}
    (h : rows.Perm rows') :
    gather key f .empty rows = gather key f .empty rows' := by
  refine OrdMap.ext_get? fun k => ?_
  rw [get?_gather, get?_gather]
  have : RightCommutative fun (o : Option β) r => some (f o r) := ⟨fun o r s => congrArg some (hcomm o r s)⟩
  exact (h.filter _).foldl_eq _

/-! ## The least of each key -/

/-- What is kept of the values that come one after the other: the least, the first of them if there are several. -/
def keepLeast {α : Type} [LinearOrder α] (g : β → α) : Option β → β → β
  | none, b => b
  | some a, b => if g b < g a then b else a

theorem foldl_keepLeast {α : Type} [LinearOrder α] (g : β → α) (value : ρ → β) (rows : List ρ) :
    rows.foldl (fun o r => some (keepLeast g o (value r))) none = (rows.map value).argmin g := by
  unfold List.argmin
  rw [List.foldl_map]
  congr 1
  funext o r
  cases o with
  | none => rfl
  | some a => simp only [keepLeast, List.argAux]; split <;> rfl

/-! ## One entry after the other -/

theorem lookupEntry_eq_none {k : κ} : ∀ {entries : List (κ × β)}, k ∉ entries.map (·.1) → lookupEntry k entries = none
  | [], _ => rfl
  | e :: entries, h => by
    rw [List.map_cons, List.mem_cons, not_or] at h
    rw [lookupEntry, if_neg h.1]
    exact lookupEntry_eq_none h.2

/-- Where each key comes once, what is found under a key is its entry, in whatever order the entries come. -/
theorem lookupEntry_eq_some_iff_of_nodup {k : κ} {v : β} : ∀ {entries : List (κ × β)}, (entries.map (·.1)).Nodup →
    (lookupEntry k entries = some v ↔ (k, v) ∈ entries)
  | [], _ => by simp [lookupEntry]
  | e :: entries, hnodup => by
    obtain ⟨hnot, hnodup⟩ := List.nodup_cons.1 hnodup
    rw [lookupEntry, List.mem_cons]
    by_cases hk : k = e.1
    · rw [if_pos hk]
      constructor
      · intro h
        cases h
        exact .inl (by rw [hk])
      · rintro (rfl | hmem)
        · rfl
        · rw [hk] at hmem
          exact absurd (List.mem_map_of_mem hmem) hnot
    · rw [if_neg hk, lookupEntry_eq_some_iff_of_nodup hnodup]
      exact ⟨.inr, fun h => h.resolve_left fun he => hk (congrArg Prod.fst he)⟩

/-- A loop over the entries of a map, each of which touches its own key only, leaves at each key what its entry makes of
it. Each key comes once, so the order of the entries is of no account. -/
theorem get?_foldl_entries {step : OrdMap κ γ → κ × β → OrdMap κ γ} {update : Option γ → β → Option γ}
    (hself : ∀ t e, (step t e).get? e.1 = update (t.get? e.1) e.2)
      (hother : ∀ t e k, k ≠ e.1 → (step t e).get? k = t.get? k)
    (k : κ) : ∀ (entries : List (κ × β)), (entries.map (·.1)).Nodup → ∀ t : OrdMap κ γ,
      (entries.foldl step t).get? k = (lookupEntry k entries).elim (t.get? k) (update (t.get? k))
  | [], _, t => rfl
  | e :: entries, hnodup, t => by
    obtain ⟨hnot, hnodup⟩ := List.nodup_cons.1 hnodup
    rw [List.foldl_cons, get?_foldl_entries hself hother k entries hnodup (step t e), lookupEntry]
    by_cases hk : k = e.1
    · subst hk
      rw [lookupEntry_eq_none hnot, if_pos rfl, hself]
      rfl
    · rw [if_neg hk, hother t e k hk]

end Zohar.Lib
