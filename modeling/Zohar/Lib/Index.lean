/-
An index kept beside a map: it finds a value's place by a key of the value, and must be written whenever the map is. It
agrees with the map exactly if no two values have the same key and every write of the map is followed by one of its own.
-/
import Zohar.Lib.OrdMap

namespace Zohar.Lib

variable {κ ε β : Type} [LinearOrder κ] [LinearOrder ε]

/-- The index leads from the keys of the values to their places, and has no other entries. -/
def Indexes (key : β → Option κ) (m : OrdMap ε β) (idx : OrdMap κ ε) : Prop :=
  ∀ k e, idx.get? k = some e ↔ ∃ v, m.get? e = some v ∧ key v = some k

namespace Indexes

variable {key : β → Option κ} {m : OrdMap ε β} {idx : OrdMap κ ε}

theorem empty (key : β → Option κ) : Indexes key (.empty : OrdMap ε β) .empty := by
  intro k e
  simp

/-- Values with one key are at one place. -/
theorem unique (h : Indexes key m idx) {e f : ε} {v w : β} {k : κ} (he : m.get? e = some v) (hf : m.get? f = some w)
    (hv : key v = some k) (hw : key w = some k) : e = f := by
  have hke : idx.get? k = some e := (h k e).2 ⟨v, he, hv⟩
  have hkf : idx.get? k = some f := (h k f).2 ⟨w, hf, hw⟩
  rw [hke] at hkf
  exact Option.some.inj hkf

theorem get?_of_key (h : Indexes key m idx) {e : ε} {v : β} {k : κ} (he : m.get? e = some v) (hv : key v = some k) :
    idx.get? k = some e := (h k e).2 ⟨v, he, hv⟩

/-- A new value and its entry keep the agreement exactly if no value has its key yet. -/
theorem insert_iff (h : Indexes key m idx) {e : ε} {v : β} {k : κ} (he : m.get? e = none) (hv : key v = some k) :
    Indexes key (m.insert e v) (idx.insert k e) ↔ idx.get? k = none := by
  constructor
  · intro hi
    rw [Option.eq_none_iff_forall_ne_some]
    intro f hf
    obtain ⟨w, hw, hk⟩ := (h k f).1 hf
    -- the value that has the key already would be at the new place as well
    have hfe : f ≠ e := by
      rintro rfl
      rw [he] at hw
      cases hw
    have hw' : (m.insert e v).get? f = some w := by rw [OrdMap.get?_insert, if_neg hfe]; exact hw
    have he' : (m.insert e v).get? e = some v := by rw [OrdMap.get?_insert, if_pos rfl]
    exact hfe (hi.unique hw' he' hk hv)
  · intro hn k' f
    rw [OrdMap.get?_insert]
    by_cases hk : k' = k
    · subst hk
      rw [if_pos rfl]
      constructor
      · intro hf
        cases hf
        exact ⟨v, by rw [OrdMap.get?_insert, if_pos rfl], hv⟩
      · rintro ⟨w, hw, hkw⟩
        rw [OrdMap.get?_insert] at hw
        split at hw
        · rename_i hfe
          rw [hfe]
        · have := h.get?_of_key hw hkw
          rw [hn] at this
          cases this
    · rw [if_neg hk, h k' f]
      constructor
      · rintro ⟨w, hw, hkw⟩
        refine ⟨w, ?_, hkw⟩
        rw [OrdMap.get?_insert, if_neg]
        · exact hw
        · rintro rfl
          rw [he] at hw
          cases hw
      · rintro ⟨w, hw, hkw⟩
        rw [OrdMap.get?_insert] at hw
        split at hw
        · cases hw
          rw [hv] at hkw
          exact absurd (Option.some.inj hkw).symm hk
        · exact ⟨w, hw, hkw⟩

/-- A new value without a key has no entry. -/
theorem insert_keyless (h : Indexes key m idx) {e : ε} {v : β} (he : m.get? e = none) (hv : key v = none) :
    Indexes key (m.insert e v) idx := by
  intro k f
  rw [h k f]
  constructor
  · rintro ⟨w, hw, hk⟩
    refine ⟨w, ?_, hk⟩
    rw [OrdMap.get?_insert, if_neg]
    · exact hw
    · rintro rfl
      rw [he] at hw
      cases hw
  · rintro ⟨w, hw, hk⟩
    rw [OrdMap.get?_insert] at hw
    split at hw
    · cases hw
      rw [hv] at hk
      cases hk
    · exact ⟨w, hw, hk⟩

/-- The value goes with its entry. -/
theorem erase (h : Indexes key m idx) {e : ε} {v : β} {k : κ} (he : m.get? e = some v) (hv : key v = some k) :
    Indexes key (m.erase e) (idx.erase k) := by
  intro k' f
  rw [OrdMap.get?_erase_eq_some_iff, h k' f]
  constructor
  · rintro ⟨hk, w, hw, hkw⟩
    refine ⟨w, OrdMap.get?_erase_eq_some_iff.2 ⟨?_, hw⟩, hkw⟩
    rintro rfl
    rw [he] at hw
    cases hw
    rw [hv] at hkw
    exact hk (Option.some.inj hkw).symm
  · rintro ⟨w, hw, hkw⟩
    obtain ⟨hf, hw⟩ := OrdMap.get?_erase_eq_some_iff.1 hw
    refine ⟨?_, w, hw, hkw⟩
    rintro rfl
    exact hf (h.unique hw he hkw hv)

theorem erase_keyless (h : Indexes key m idx) {e : ε} {v : β} (he : m.get? e = some v) (hv : key v = none) :
    Indexes key (m.erase e) idx := by
  intro k f
  rw [h k f]
  constructor
  · rintro ⟨w, hw, hk⟩
    refine ⟨w, OrdMap.get?_erase_eq_some_iff.2 ⟨?_, hw⟩, hk⟩
    rintro rfl
    rw [he] at hw
    cases hw
    rw [hv] at hk
    cases hk
  · rintro ⟨w, hw, hk⟩
    exact ⟨w, (OrdMap.get?_erase_eq_some_iff.1 hw).2, hk⟩

/-- Where every value has a key among those of a finite set, there are no more values than the set has keys. -/
theorem length_le (h : Indexes key m idx) (keys : Finset κ)
    (hkey : ∀ e v, m.get? e = some v → ∃ k ∈ keys, key v = some k) :
    m.entries.length ≤ keys.card := by
  have hget : ∀ x ∈ m.entries, m.get? x.1 = some x.2 := fun x hx => OrdMap.get?_eq_some_iff.2 hx
  have hnodup : (m.entries.map fun x => key x.2).Nodup := by
    rw [List.nodup_map_iff_inj_on (m.sorted.imp fun hlt heq => absurd (congrArg Prod.fst heq) (ne_of_lt hlt))]
    intro x hx y hy hxy
    obtain ⟨k, -, hk⟩ := hkey _ _ (hget x hx)
    have hplace : x.1 = y.1 := h.unique (hget x hx) (hget y hy) hk (hxy ▸ hk)
    have hvalue := hget x hx
    rw [hplace, hget y hy] at hvalue
    exact Prod.ext hplace (Option.some.inj hvalue).symm
  have hsub : (m.entries.map fun x => key x.2).toFinset ⊆ keys.map ⟨some, Option.some_injective κ⟩ := by
    intro o ho
    obtain ⟨x, hx, rfl⟩ := List.mem_map.1 (List.mem_toFinset.1 ho)
    obtain ⟨k, hk, hkx⟩ := hkey _ _ (hget x hx)
    rw [hkx]
    exact Finset.mem_map_of_mem _ hk
  have hcard := Finset.card_le_card hsub
  rwa [List.toFinset_card_of_nodup hnodup, List.length_map, Finset.card_map] at hcard

end Indexes

end Zohar.Lib
