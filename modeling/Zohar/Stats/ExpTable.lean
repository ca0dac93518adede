/-
Which lists of entries an experience table is built from: those whose levels are 1, …, n in some order and that all ask
for some experience. Every level then has its own entry.
-/
import Zohar.Stats.Leveling

namespace Zohar.Stats

open Zohar.Lib

namespace LevelExpTable

/-- The numbers `1, …, n`. -/
def levelsUpTo (n : Nat) : List Int := (List.range n).map fun i : Nat => 1 + (i : Int)

theorem mem_levelsUpTo {n : Nat} {level : Int} : level ∈ levelsUpTo n ↔ 1 ≤ level ∧ level ≤ n := by
  unfold levelsUpTo
  simp only [List.mem_map, List.mem_range]
  constructor
  · rintro ⟨i, hi, rfl⟩
    omega
  · rintro ⟨h1, h2⟩
    exact ⟨(level - 1).toNat, by omega, by omega⟩

theorem levelsUpTo_pairwise (n : Nat) : (levelsUpTo n).Pairwise (· < ·) := by
  unfold levelsUpTo
  rw [List.pairwise_map]
  exact List.pairwise_lt_range.imp fun h => by omega

theorem firstMissing_range : ∀ (n : Nat) (k : Int), firstMissing k ((List.range n).map fun i : Nat => k + i) = none
  | 0, _ => rfl
  | n + 1, k => by
    rw [List.range_succ_eq_map, List.map_cons, List.map_map]
    unfold firstMissing
    rw [if_neg (by simp)]
    have hshift : (fun i : Nat => k + (i : Int)) ∘ Nat.succ = fun i : Nat => (k + 1) + (i : Int) := by
      funext i
      simp only [Function.comp, Nat.succ_eq_add_one, Nat.cast_add, Nat.cast_one]
      omega
    rw [hshift]
    exact firstMissing_range n (k + 1)

/-- The entries that are collected are acceptable one by one, and no level comes twice. -/
structure Collects (es : List LevelExpEntry) (m : OrdMap Int LevelExpEntry) : Prop where
  entry : ∀ e ∈ es, 1 ≤ e.level ∧ 0 < e.nextExp
  nodup : (es.map (·.level)).Nodup
  fresh : ∀ e ∈ es, m.get? e.level = none

theorem collects_cons {e : LevelExpEntry} {es : List LevelExpEntry} {m : OrdMap Int LevelExpEntry} :
    Collects (e :: es) m ↔ (1 ≤ e.level ∧ 0 < e.nextExp) ∧ m.get? e.level = none ∧
      Collects es (m.insert e.level e) := by
  constructor
  · rintro ⟨hentry, hnodup, hfresh⟩
    rw [List.map_cons, List.nodup_cons] at hnodup
    refine ⟨hentry e List.mem_cons_self, hfresh e List.mem_cons_self, fun a ha => hentry a (List.mem_cons_of_mem _ ha),
      hnodup.2, fun a ha => ?_⟩
    have hne : a.level ≠ e.level := fun h => hnodup.1 (h ▸ List.mem_map_of_mem ha)
    rw [OrdMap.get?_insert, if_neg hne]
    exact hfresh a (List.mem_cons_of_mem _ ha)
  · rintro ⟨hhead, hnew, hentry, hnodup, hfresh⟩
    have hother : ∀ a ∈ es, a.level ≠ e.level ∧ m.get? a.level = none := by
      intro a ha
      have h := hfresh a ha
      rw [OrdMap.get?_insert] at h
      split at h
      · cases h
      · rename_i hne
        exact ⟨hne, h⟩
    refine ⟨?_, ?_, ?_⟩
    · intro a ha
      rcases List.mem_cons.1 ha with rfl | ha
      · exact hhead
      · exact hentry a ha
    · rw [List.map_cons, List.nodup_cons]
      refine ⟨fun hmem => ?_, hnodup⟩
      obtain ⟨a, ha, heq⟩ := List.mem_map.1 hmem
      exact (hother a ha).1 heq
    · intro a ha
      rcases List.mem_cons.1 ha with rfl | ha
      · exact hnew
      · exact (hother a ha).2

/-- Exactly such entries are collected, and nothing else is added. -/
theorem collect_ok_iff : ∀ {es : List LevelExpEntry} {m : OrdMap Int LevelExpEntry},
    (∃ n, collect m es = .ok n) ↔ Collects es m
  | [], m => iff_of_true ⟨m, rfl⟩ ⟨nofun, List.nodup_nil, nofun⟩
  | e :: es, m => by
    unfold collect
    rw [collects_cons]
    split
    · rename_i hlevel
      exact iff_of_false (by simp) fun h => by omega
    · split
      · rename_i hexp
        exact iff_of_false (by simp) fun h => by omega
      · split
        · rename_i hdup
          refine iff_of_false (by simp) fun h => ?_
          rw [h.2.1] at hdup
          cases hdup
        · rename_i hlevel hexp hdup
          rw [collect_ok_iff]
          exact ⟨fun h => ⟨⟨by omega, by omega⟩, by simpa using hdup, h⟩, fun h => h.2.2⟩

theorem collect_get? : ∀ {es : List LevelExpEntry} {m n : OrdMap Int LevelExpEntry}, collect m es = .ok n →
    ∀ k e, n.get? k = some e ↔ (e ∈ es ∧ e.level = k) ∨ m.get? k = some e
  | [], m, n, h, k, e => by
    cases h
    simp
  | a :: es, m, n, h, k, e => by
    obtain ⟨-, hnew, -⟩ := collects_cons.1 (collect_ok_iff.1 ⟨n, h⟩)
    unfold collect at h
    split at h
    · cases h
    · split at h
      · cases h
      · split at h
        · cases h
        · rw [collect_get? h k e, OrdMap.get?_insert, List.mem_cons]
          by_cases hk : k = a.level
          · subst hk
            rw [if_pos rfl, hnew, Option.some.injEq]
            constructor
            · rintro (⟨hmem, hlevel⟩ | rfl)
              · exact .inl ⟨.inr hmem, hlevel⟩
              · exact .inl ⟨.inl rfl, rfl⟩
            · rintro (⟨rfl | hmem, hlevel⟩ | hnone)
              · exact .inr rfl
              · exact .inl ⟨hmem, hlevel⟩
              · cases hnone
          · rw [if_neg hk]
            constructor
            · rintro (⟨hmem, hlevel⟩ | hm)
              · exact .inl ⟨.inr hmem, hlevel⟩
              · exact .inr hm
            · rintro (⟨rfl | hmem, hlevel⟩ | hm)
              · exact absurd hlevel.symm hk
              · exact .inl ⟨hmem, hlevel⟩
              · exact .inr hm

/-- The levels of the collected entries, sorted, are the keys of the table. -/
theorem collect_keys {es : List LevelExpEntry} {n : OrdMap Int LevelExpEntry} (h : collect .empty es = .ok n) :
    n.keys.Perm (es.map (·.level)) := by
  have hnodup : n.keys.Nodup := n.keys_pairwise.imp ne_of_lt
  refine (List.perm_ext_iff_of_nodup hnodup (collect_ok_iff.1 ⟨n, h⟩).nodup).2 fun k => ?_
  rw [OrdMap.mem_keys_iff, Option.isSome_iff_exists, List.mem_map]
  refine exists_congr fun e => ?_
  rw [collect_get? h k e]
  simp

/-- What is left after the entries are collected: their levels have no gap. -/
theorem tryNew_eq_ok_iff {es : List LevelExpEntry} {n : OrdMap Int LevelExpEntry} {t : LevelExpTable}
    (h : collect .empty es = .ok n) :
    tryNew es = .ok t ↔ es ≠ [] ∧ n.keys = levelsUpTo n.keys.length ∧ t = ⟨n⟩ := by
  have hkeys := collect_keys h
  have hlen : n.entries.isEmpty = true ↔ es = [] := by
    rw [List.isEmpty_iff, ← List.length_eq_zero_iff, ← List.length_eq_zero_iff, ← List.length_map (f := Prod.fst),
      ← @List.length_map _ _ es (·.level)]
    exact Eq.congr_left hkeys.length_eq
  unfold tryNew
  rw [h]
  dsimp only
  by_cases hempty : es = []
  · rw [if_pos (hlen.2 hempty)]
    exact iff_of_false (by simp) fun h => h.1 hempty
  rw [if_neg (fun h => hempty (hlen.1 h))]
  have hpos : 0 < n.keys.length := by
    rw [hkeys.length_eq, List.length_map]
    exact List.length_pos_iff.2 hempty
  split
  · rename_i hone
    refine iff_of_false (by simp) fun hall => ?_
    have hmem : (1 : Int) ∈ n.keys := by
      rw [hall.2.1]
      exact mem_levelsUpTo.2 ⟨le_rfl, by omega⟩
    rw [OrdMap.mem_keys_iff] at hmem
    rw [Option.isNone_iff_eq_none] at hone
    rw [hone] at hmem
    cases hmem
  · split
    · rename_i level hgap
      refine iff_of_false (by simp) fun hall => ?_
      rw [hall.2.1, levelsUpTo, firstMissing_range] at hgap
      cases hgap
    · rename_i hgap
      rw [Except.ok.injEq]
      exact ⟨fun ht => ⟨hempty, firstMissing_none hgap, ht.symm⟩, fun ht => ht.2.2.symm⟩

/-- A table is accepted exactly if it has entries, their levels are `1, …, n` in some order and each asks for
experience; then every one of these levels has its own entry. -/
theorem tryNew_ok_iff (es : List LevelExpEntry) :
    ((∃ t, tryNew es = .ok t) ↔
      es ≠ [] ∧ (∃ n, (es.map (·.level)).Perm (levelsUpTo n)) ∧ ∀ e ∈ es, 0 < e.nextExp) ∧
    ∀ t, tryNew es = .ok t → ∀ level : Int, 1 ≤ level → level ≤ es.length →
      ∃ e ∈ es, e.level = level ∧ t.entryForLevel level = some e ∧ ∀ e' ∈ es, e'.level = level → e' = e := by
  have hcollected : ∀ {t}, tryNew es = .ok t → ∃ n, collect .empty es = .ok n := by
    intro t ht
    unfold tryNew at ht
    split at ht
    · cases ht
    · exact ⟨_, by assumption⟩
  constructor
  · constructor
    · rintro ⟨t, ht⟩
      obtain ⟨n, hn⟩ := hcollected ht
      obtain ⟨hne, hkeys, -⟩ := (tryNew_eq_ok_iff hn).1 ht
      refine ⟨hne, ⟨n.keys.length, ?_⟩, fun e he => ((collect_ok_iff.1 ⟨n, hn⟩).entry e he).2⟩
      rw [← hkeys]
      exact (collect_keys hn).symm
    · rintro ⟨hne, ⟨top, hperm⟩, hpos⟩
      have hcollects : Collects es .empty := by
        refine ⟨fun e he => ⟨?_, hpos e he⟩, ?_, fun _ _ => rfl⟩
        · exact (mem_levelsUpTo.1 (hperm.mem_iff.1 (List.mem_map_of_mem he))).1
        · exact hperm.nodup_iff.2 ((levelsUpTo_pairwise top).imp ne_of_lt)
      obtain ⟨n, hn⟩ := collect_ok_iff.2 hcollects
      have hsame : n.keys = levelsUpTo top :=
        List.Perm.eq_of_pairwise (fun a b _ _ hab hba => absurd hab hba.asymm) n.keys_pairwise (levelsUpTo_pairwise top)
          ((collect_keys hn).trans hperm)
      refine ⟨⟨n⟩, (tryNew_eq_ok_iff hn).2 ⟨hne, ?_, rfl⟩⟩
      rw [hsame]
      unfold levelsUpTo
      rw [List.length_map, List.length_range]
  · intro t ht level h1 h2
    obtain ⟨n, hn⟩ := hcollected ht
    obtain ⟨-, hkeys, rfl⟩ := (tryNew_eq_ok_iff hn).1 ht
    have hmem : level ∈ n.keys := by
      rw [hkeys, (collect_keys hn).length_eq, List.length_map]
      exact mem_levelsUpTo.2 ⟨h1, h2⟩
    obtain ⟨e, he⟩ := Option.isSome_iff_exists.1 (OrdMap.mem_keys_iff.1 hmem)
    have hentry : ∀ e', n.get? level = some e' ↔ e' ∈ es ∧ e'.level = level := fun e' => by
      rw [collect_get? hn level e']
      simp
    obtain ⟨hin, hlevel⟩ := (hentry e).1 he
    refine ⟨e, hin, hlevel, he, fun e' hin' hlevel' => ?_⟩
    exact Option.some.inj (((hentry e').2 ⟨hin', hlevel'⟩).symm.trans he)

end LevelExpTable

end Zohar.Stats
