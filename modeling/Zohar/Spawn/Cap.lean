/-
How many mobs a rule brings. A rule counts whole template instances when it spawns and single mobs when their corpses
are cleaned up; the history of the instances says what the count should be.
-/
import Zohar.Spawn.Schedule

namespace Zohar.Spawn

open Zohar.Lib Zohar.Replication
open Zohar.Tickets (WeightedGroupChoice)

/-- The size of the largest group that a template can bring. -/
def SpawnTemplate.largest : SpawnTemplate → Nat
  | .mob _ => 1
  | .group members => members.length
  | .groupGroup choices => (choices.map fun choice => choice.members.length).foldr max 0

/-- A member of the instance is on the map. -/
def TemplateInstance.living (x : TemplateInstance) (mobs : List SpawnedMob) : Bool := x.members.any fun m => m ∈ mobs

namespace SpawnWorld

/-- The instances of a rule that still have a living member. -/
def liveInstances (w : SpawnWorld) (i : Nat) : List TemplateInstance :=
  w.spawned.filter fun x => x.ruleIndex = i && x.living w.mobs

/-- The mobs on the map that the rule has brought. -/
def population (w : SpawnWorld) (i : Nat) : List SpawnedMob :=
  w.mobs.filter fun m => w.spawned.any fun x => x.ruleIndex = i && m ∈ x.members

/-- Every rule counts its living instances, stays below its cap, and so does what it has on the map. -/
def Capped (w : SpawnWorld) : Prop :=
  ∀ i r, w.rules[i]? = some r → r.activeInstances = (w.liveInstances i).length ∧ r.activeInstances ≤ r.rule.maxCount ∧
    (w.population i).length ≤ r.rule.maxCount * r.rule.template.largest

/-- How the history and the map fit together, whatever the rules count. A rule may have lost the id of a mob of its own
to another that has the same, but what it holds is the id of one. -/
structure Wf (w : SpawnWorld) : Prop where
  nodup : w.mobs.Nodup
  known : ∀ x ∈ w.spawned, ∀ m ∈ x.members, m.entity < w.nextEntity
  disjoint : w.spawned.Pairwise fun x y => ∀ m ∈ x.members, m ∉ y.members
  owned : ∀ m ∈ w.mobs, ∃ x ∈ w.spawned, m ∈ x.members
  index : ∀ x ∈ w.spawned, ∃ r, w.rules[x.ruleIndex]? = some r ∧ x.members.length ≤ r.rule.template.largest
  entities : ∀ i r, w.rules[i]? = some r → ∀ id ∈ r.entities, ∃ m ∈ w.population i, m.netId = id

end SpawnWorld

/-- Another member of the instance is on the map. -/
def TemplateInstance.outlives (x : TemplateInstance) (w : SpawnWorld) (mob : SpawnedMob) : Bool :=
  x.living (w.mobs.filter fun m => m ≠ mob)

/-- A mob is cleaned up only when no other member of its instance is on the map, and the first rule that holds its net
id is the rule that brought it; or when another member is, and no rule holds its net id any more. As long as every mob
has a net id of its own, the second never happens. -/
def KeepsCount (w : SpawnWorld) : SpawnEvent → Prop
  | .cleanup mob => ∀ x ∈ w.spawned, mob ∈ x.members →
    w.holder mob.netId = if x.outlives w mob then none else some x.ruleIndex
  | _ => True

instance (w : SpawnWorld) (ev : SpawnEvent) : Decidable (KeepsCount w ev) :=
  match ev with
  | .cleanup mob => inferInstanceAs (Decidable (∀ x ∈ w.spawned, mob ∈ x.members →
      w.holder mob.netId = if x.outlives w mob then none else some x.ruleIndex))
  | .preload _ | .tick _ _ | .reserveNetId => .isTrue trivial

/-! ## Templates -/

theorem mem_of_pickGroupGroupChoice {choices : List WeightedGroupChoice} {roll : Nat} {c : WeightedGroupChoice}
    (h : pickGroupGroupChoice choices roll = some c) : c ∈ choices := by
  unfold pickGroupGroupChoice at h
  split at h
  · exact List.mem_of_getElem? h
  · exact List.mem_of_getLast? h
  · cases h
  · cases h

theorem le_largest {c : WeightedGroupChoice} : ∀ {choices : List WeightedGroupChoice}, c ∈ choices →
    c.members.length ≤ (SpawnTemplate.groupGroup choices).largest
  | choice :: choices, h => by
    simp only [SpawnTemplate.largest, List.map_cons, List.foldr_cons]
    rcases List.mem_cons.1 h with rfl | h
    · exact le_max_left _ _
    · exact le_max_of_le_right (le_largest h)

theorem expandSpawnTemplate_length (template : SpawnTemplate) (roll : Nat) :
    (expandSpawnTemplate template roll).length ≤ template.largest := by
  cases template with
  | mob mobId => exact le_rfl
  | group members => exact le_rfl
  | groupGroup choices =>
    simp only [expandSpawnTemplate]
    cases hpick : pickGroupGroupChoice choices roll with
    | none => exact Nat.zero_le _
    | some c => exact le_largest (mem_of_pickGroupGroupChoice hpick)

/-! ## One more instance -/

section
variable {w w' : SpawnWorld}

theorem TemplateInstance.living_iff {x : TemplateInstance} {mobs : List SpawnedMob} :
    x.living mobs = true ↔ ∃ e ∈ x.members, e ∈ mobs := by simp [TemplateInstance.living]

theorem SpawnWorld.mem_population {i : Nat} {e : SpawnedMob} :
    e ∈ w.population i ↔ e ∈ w.mobs ∧ ∃ x ∈ w.spawned, x.ruleIndex = i ∧ e ∈ x.members := by
      simp [SpawnWorld.population]

/-- An entity has one instance. -/
theorem SpawnWorld.Wf.instance_unique (h : w.Wf) {x y : TemplateInstance} (hx : x ∈ w.spawned) (hy : y ∈ w.spawned)
    {e : SpawnedMob} (hex : e ∈ x.members) (hey : e ∈ y.members) : x = y := by
  by_contra hne
  have hsymm : Std.Symm fun x y : TemplateInstance => ∀ e ∈ x.members, e ∉ y.members :=
    ⟨fun _ _ hab e hb ha => hab e ha hb⟩
  exact h.disjoint.forall hx hy hne e hex hey

theorem SpawnWorld.Wf.population_le (h : w.Wf) {i : Nat} {r : SpawnRuleState} (hr : w.rules[i]? = some r) :
    (w.population i).length ≤ (w.liveInstances i).length * r.rule.template.largest := by
  have hsub : w.population i ⊆ (w.liveInstances i).flatMap TemplateInstance.members := by
    intro e he
    obtain ⟨hmob, x, hx, hi, hmem⟩ := SpawnWorld.mem_population.1 he
    refine List.mem_flatMap.2 ⟨x, List.mem_filter.2 ⟨hx, ?_⟩, hmem⟩
    simpa using ⟨hi, TemplateInstance.living_iff.2 ⟨e, hmem, hmob⟩⟩
  calc (w.population i).length ≤ ((w.liveInstances i).flatMap TemplateInstance.members).length :=
        (List.subperm_of_subset (h.nodup.filter _) hsub).length_le
    _ = ((w.liveInstances i).map fun x => x.members.length).sum := List.length_flatMap
    _ ≤ ((w.liveInstances i).map fun x => x.members.length).length • r.rule.template.largest := by
        refine List.sum_le_card_nsmul _ _ fun n hn => ?_
        obtain ⟨x, hx, rfl⟩ := List.mem_map.1 hn
        obtain ⟨hxs, hlive⟩ := List.mem_filter.1 hx
        obtain ⟨q, hq, hlen⟩ := h.index x hxs
        have hi : x.ruleIndex = i := by simp at hlive; exact hlive.1
        rw [hi, hr] at hq
        cases hq
        exact hlen
    _ = (w.liveInstances i).length * r.rule.template.largest := by rw [List.length_map, smul_eq_mul]

/-- What the rules count, without the bound on the mobs, which follows. -/
def SpawnWorld.Counted (w : SpawnWorld) : Prop :=
  ∀ i r, w.rules[i]? = some r → r.activeInstances = (w.liveInstances i).length ∧ r.activeInstances ≤ r.rule.maxCount

theorem SpawnWorld.Wf.capped_iff (h : w.Wf) : w.Capped ↔ w.Counted := by
  constructor
  · intro hc i r hr
    exact ⟨(hc i r hr).1, (hc i r hr).2.1⟩
  · intro hc i r hr
    obtain ⟨hcount, hcap⟩ := hc i r hr
    refine ⟨hcount, hcap, (h.population_le hr).trans (Nat.mul_le_mul_right _ ?_)⟩
    rw [← hcount]
    exact hcap

section
variable {members : List SpawnedMob} {i : Nat}

theorem Brought.not_mem (hb : Brought w members w') (h : w.Wf) {x : TemplateInstance} (hx : x ∈ w.spawned)
    {e : SpawnedMob} (he : e ∈ members) : e ∉ x.members := by
  intro hmem
  have hknown := h.known x hx e hmem
  have hfresh := (hb.fresh e he).1
  omega

theorem liveInstances_addInstance (hb : Brought w members w') (h : w.Wf) (hne : members ≠ []) (j : Nat) :
    (w'.addInstance i members).liveInstances j = w.liveInstances j ++ if i = j then [⟨i, members⟩] else [] := by
  have hold : ∀ x ∈ w.spawned, x.living (w.mobs ++ members) = x.living w.mobs := by
    intro x hx
    rw [Bool.eq_iff_iff, TemplateInstance.living_iff, TemplateInstance.living_iff]
    refine exists_congr fun e => and_congr_right fun he => ?_
    rw [List.mem_append, or_iff_left fun hmem => hb.not_mem h hx hmem he]
  have hnew : TemplateInstance.living ⟨i, members⟩ (w.mobs ++ members) = true := by
    obtain ⟨e, he⟩ := List.exists_mem_of_ne_nil _ hne
    exact TemplateInstance.living_iff.2 ⟨e, he, List.mem_append_right _ he⟩
  have hspawned : (w'.addInstance i members).spawned = w.spawned ++ [⟨i, members⟩] := by
    rw [← hb.spawned]
    rfl
  rw [SpawnWorld.liveInstances, hspawned, show (w'.addInstance i members).mobs = w.mobs ++ members from hb.mobs,
    List.filter_append]
  congr 1
  · exact List.filter_congr fun x hx => by rw [hold x hx]
  · by_cases hij : i = j
    · subst hij
      simp [hnew]
    · simp [hij]

theorem mem_population_addInstance (hb : Brought w members w') (h : w.Wf) (j : Nat) (e : SpawnedMob) :
    e ∈ (w'.addInstance i members).population j ↔ e ∈ w.population j ∨ i = j ∧ e ∈ members := by
  have hmob : e ∈ w.mobs → e ∉ members := by
    intro he hmem
    obtain ⟨x, hx, hex⟩ := h.owned e he
    exact hb.not_mem h hx hmem hex
  rw [SpawnWorld.mem_population, SpawnWorld.mem_population, show (w'.addInstance i members).mobs = w.mobs ++
    members from hb.mobs,
    show (w'.addInstance i members).spawned = w.spawned ++ [⟨i, members⟩] by rw [← hb.spawned]; rfl]
  simp only [List.mem_append, List.mem_singleton]
  constructor
  · rintro ⟨he, x, hx | rfl, hi, hex⟩
    · rcases he with he | he
      · exact .inl ⟨he, x, hx, hi, hex⟩
      · exact absurd hex (hb.not_mem h hx he)
    · exact .inr ⟨hi, hex⟩
  · rintro (⟨he, x, hx, hi, hex⟩ | ⟨hi, he⟩)
    · exact ⟨.inl he, x, .inl hx, hi, hex⟩
    · exact ⟨.inr he, _, .inr rfl, hi, he⟩

theorem SpawnWorld.Wf.addInstance (h : w.Wf) (hb : Brought w members w') {r : SpawnRuleState}
    (hr : w.rules[i]? = some r) (hlen : members.length ≤ r.rule.template.largest) : (w'.addInstance i members).Wf := by
  have hspawned : (w'.addInstance i members).spawned = w.spawned ++ [⟨i, members⟩] := by
    rw [← hb.spawned]
    rfl
  have hmobs : (w'.addInstance i members).mobs = w.mobs ++ members := hb.mobs
  have hrules : ∀ (j : Nat) (q : SpawnRuleState), w.rules[j]? = some q →
      ∃ q', (w'.addInstance i members).rules[j]? = some q' ∧ q'.rule = q.rule := by
    intro j q hq
    rw [SpawnWorld.addInstance_rules, hb.rules, hq]
    split
    · exact ⟨_, rfl, rfl⟩
    · exact ⟨q, rfl, rfl⟩
  refine ⟨?_, ?_, ?_, ?_, ?_, ?_⟩
  · rw [hmobs, List.nodup_append']
    refine ⟨h.nodup, hb.nodup, fun e he hmem => ?_⟩
    obtain ⟨x, hx, hex⟩ := h.owned e he
    exact hb.not_mem h hx hmem hex
  · intro x hx e he
    rw [hspawned] at hx
    rcases List.mem_append.1 hx with hx | hx
    · exact (h.known x hx e he).trans_le hb.nextEntity
    · cases List.mem_singleton.1 hx
      exact (hb.fresh e he).2
  · rw [hspawned]
    refine List.pairwise_append.2 ⟨h.disjoint, List.pairwise_singleton _ _, fun x hx y hy e he hmem => ?_⟩
    cases List.mem_singleton.1 hy
    exact hb.not_mem h hx hmem he
  · intro e he
    rw [hmobs] at he
    rw [hspawned]
    rcases List.mem_append.1 he with he | he
    · obtain ⟨x, hx, hex⟩ := h.owned e he
      exact ⟨x, List.mem_append_left _ hx, hex⟩
    · exact ⟨_, List.mem_append_right _ List.mem_cons_self, he⟩
  · intro x hx
    rw [hspawned] at hx
    rcases List.mem_append.1 hx with hx | hx
    · obtain ⟨q, hq, hsize⟩ := h.index x hx
      obtain ⟨q', hq', hrule⟩ := hrules _ q hq
      exact ⟨q', hq', hrule ▸ hsize⟩
    · cases List.mem_singleton.1 hx
      obtain ⟨q', hq', hrule⟩ := hrules i r hr
      exact ⟨q', hq', hrule ▸ hlen⟩
  · intro j q hq id hid
    have hadded : ∀ m, m ∈ (w'.addInstance i members).population j ↔ m ∈ w.population j ∨ i = j ∧ m ∈ members :=
      mem_population_addInstance hb h j
    rw [SpawnWorld.addInstance_rules, hb.rules] at hq
    split at hq
    · rename_i hij
      obtain ⟨q0, hq0, rfl⟩ := Option.map_eq_some_iff.1 hq
      rcases List.mem_append.1 hid with hid | hid
      · obtain ⟨m, hm, hnet⟩ := h.entities j q0 hq0 id hid
        exact ⟨m, (hadded m).2 (.inl hm), hnet⟩
      · obtain ⟨m, hm, hnet⟩ := List.mem_map.1 hid
        exact ⟨m, (hadded m).2 (.inr ⟨hij, hm⟩), hnet⟩
    · obtain ⟨m, hm, hnet⟩ := h.entities j q hq id hid
      exact ⟨m, (hadded m).2 (.inl hm), hnet⟩

theorem SpawnWorld.Counted.addInstance (hc : w.Counted) (hb : Brought w members w') (h : w.Wf) (hne : members ≠ [])
    {r : SpawnRuleState} (hr : w.rules[i]? = some r) (hcap : r.activeInstances < r.rule.maxCount) :
    (w'.addInstance i members).Counted := by
  intro j q hq
  rw [liveInstances_addInstance hb h hne]
  rw [SpawnWorld.addInstance_rules, hb.rules] at hq
  split at hq
  · rename_i hij
    subst hij
    rw [hr] at hq
    cases hq
    obtain ⟨hcount, _⟩ := hc i r hr
    simp only [List.length_append, List.length_singleton, if_true]
    exact ⟨by rw [hcount], hcap⟩
  · rename_i hij
    rw [if_neg hij, List.append_nil]
    exact hc j q hq

end

/-! ## Fills, ticks and preloads -/

/-- What the history and the counts depend on. -/
structure SameMobs (w w' : SpawnWorld) : Prop where
  mobs : w'.mobs = w.mobs
  spawned : w'.spawned = w.spawned
  nextEntity : w.nextEntity ≤ w'.nextEntity
  rules : ∀ i : Nat, w'.rules[i]?.map (fun r => (r.rule, r.activeInstances, r.entities)) =
    w.rules[i]?.map fun r => (r.rule, r.activeInstances, r.entities)

theorem SameMobs.rule (hs : SameMobs w w') {i : Nat} {r' : SpawnRuleState} (hr' : w'.rules[i]? = some r') :
    ∃ r, w.rules[i]? = some r ∧ r.rule = r'.rule ∧ r.activeInstances = r'.activeInstances ∧
      r.entities = r'.entities := by
  have h := hs.rules i
  rw [hr', Option.map_some] at h
  obtain ⟨r, hr, heq⟩ := Option.map_eq_some_iff.1 h.symm
  simp only [Prod.mk.injEq] at heq
  exact ⟨r, hr, heq⟩

theorem SameMobs.symm_rule (hs : SameMobs w w') {i : Nat} {r : SpawnRuleState} (hr : w.rules[i]? = some r) :
    ∃ r', w'.rules[i]? = some r' ∧ r'.rule = r.rule := by
  have h := hs.rules i
  rw [hr, Option.map_some] at h
  obtain ⟨r', hr', heq⟩ := Option.map_eq_some_iff.1 h
  simp only [Prod.mk.injEq] at heq
  exact ⟨r', hr', heq.1⟩

theorem SameMobs.wf (hs : SameMobs w w') (h : w.Wf) : w'.Wf := by
  have hpop : ∀ i, w'.population i = w.population i := fun i => by
    rw [SpawnWorld.population, SpawnWorld.population, hs.mobs, hs.spawned]
  refine ⟨hs.mobs ▸ h.nodup, ?_, hs.spawned ▸ h.disjoint, by rw [hs.mobs, hs.spawned]; exact h.owned, ?_, ?_⟩
  · intro x hx e he
    rw [hs.spawned] at hx
    exact (h.known x hx e he).trans_le hs.nextEntity
  · intro x hx
    rw [hs.spawned] at hx
    obtain ⟨r, hr, hlen⟩ := h.index x hx
    obtain ⟨r', hr', hrule⟩ := hs.symm_rule hr
    exact ⟨r', hr', hrule ▸ hlen⟩
  · intro i r' hr' id hid
    obtain ⟨r, hr, _, _, hentities⟩ := hs.rule hr'
    rw [hpop]
    exact h.entities i r hr id (hentities ▸ hid)

theorem SameMobs.counted (hs : SameMobs w w') (hc : w.Counted) : w'.Counted := by
  intro i r' hr'
  obtain ⟨r, hr, hrule, hactive, _⟩ := hs.rule hr'
  rw [SpawnWorld.liveInstances, hs.spawned, hs.mobs, ← hrule, ← hactive]
  exact hc i r hr

theorem SameMobs.of_brought (hb : Brought w [] w') : SameMobs w w' :=
  ⟨by rw [hb.mobs, List.append_nil], hb.spawned, hb.nextEntity, fun i => by rw [hb.rules]⟩

theorem SameMobs.setRule (i : Nat) {f : SpawnRuleState → SpawnRuleState}
    (hf : ∀ r, ((f r).rule, (f r).activeInstances, (f r).entities) = (r.rule, r.activeInstances, r.entities)) :
    SameMobs w (w.setRule i f) := by
  refine ⟨rfl, rfl, le_rfl, fun j => ?_⟩
  rw [SpawnWorld.setRule_rules]
  split
  · rw [Option.map_map]
    exact Option.map_congr fun r _ => hf r
  · rfl

theorem rescheduleRule_sameMobs (w : SpawnWorld) (i : Nat) : SameMobs w (rescheduleRule w i) := by
  unfold rescheduleRule
  split
  · exact ⟨rfl, rfl, le_rfl, fun _ => rfl⟩
  · split
    · obtain ⟨hmobs, hspawned, hnext, hrules⟩ := SameMobs.setRule (w := w) i
        (f := fun r => { r with respawnAt := some (satAdd w.simNow 1) }) fun _ => rfl
      exact ⟨hmobs, hspawned, hnext, hrules⟩
    · exact SameMobs.setRule i fun _ => rfl

variable {cfg : SpawnConfig}

theorem fillRule_capped {i : Nat} {r : SpawnRuleState} {rolls rolls' : List SpawnRoll} (h : w.Wf) (hc : w.Counted)
    (hr : w.rules[i]? = some r)
    (hfill : fillRule cfg r.rule i (r.rule.maxCount - r.activeInstances) w rolls = some (w', rolls')) :
    w'.Wf ∧ w'.Counted := by
  have hcap := (hc i r hr).2
  obtain ⟨m, _, hP⟩ := fillRule_induction (i := i)
    (P := fun n w => w.Wf ∧ w.Counted ∧ ∃ q, w.rules[i]? = some q ∧ q.rule = r.rule ∧
      q.activeInstances + n ≤ r.rule.maxCount)
    (fun n w w' hP hb => by
      obtain ⟨h, hc, q, hq, hrule, hle⟩ := hP
      have hsame := SameMobs.of_brought hb
      exact ⟨hsame.wf h, hsame.counted hc, q, by rw [hb.rules]; exact hq, hrule, hle⟩)
    (fun n w w' members hP hb hne hlen => by
      obtain ⟨h, hc, q, hq, hrule, hle⟩ := hP
      obtain ⟨roll, hlen⟩ := hlen
      have hsize : members.length ≤ q.rule.template.largest := by
        rw [hrule]
        exact hlen.trans (expandSpawnTemplate_length _ _)
      refine ⟨h.addInstance hb hq hsize, hc.addInstance hb h hne hq (by rw [hrule]; omega),
        { q with entities := q.entities ++ members.map (·.netId), activeInstances := q.activeInstances + 1 },
        ?_, hrule, ?_⟩
      · rw [SpawnWorld.addInstance_rules, if_pos rfl, hb.rules, hq, Option.map_some]
      · show q.activeInstances + 1 + n ≤ r.rule.maxCount
        omega)
    _ w rolls ⟨h, hc, r, hr, rfl, by omega⟩ hfill
  exact ⟨hP.1, hP.2.1⟩

theorem spawnEntry_capped {t i : Nat} {rolls rolls' : List SpawnRoll} (h : w.Wf) (hc : w.Counted)
    (hs : spawnEntry cfg w t i rolls = some (w', rolls')) : w'.Wf ∧ w'.Counted := by
  unfold spawnEntry at hs
  split at hs
  · cases hs
    exact ⟨h, hc⟩
  · rename_i r hr
    split at hs
    · cases hs
      exact ⟨h, hc⟩
    · split at hs
      · cases hs
        have hsame : SameMobs w (w.setRule i fun r => { r with respawnAt := none }) := .setRule i fun _ => rfl
        exact ⟨hsame.wf h, hsame.counted hc⟩
      · obtain ⟨⟨w1, rolls1⟩, hfill, heq⟩ := Option.map_eq_some_iff.1 hs
        cases heq
        obtain ⟨h1, hc1⟩ := fillRule_capped h hc hr hfill
        exact ⟨(rescheduleRule_sameMobs w1 i).wf h1, (rescheduleRule_sameMobs w1 i).counted hc1⟩

theorem spawnLoop_capped : ∀ {fuel : Nat} {w w' : SpawnWorld} {rolls rolls' : List SpawnRoll}, w.Wf → w.Counted →
    spawnLoop cfg fuel w rolls = .ok (w', rolls') → w'.Wf ∧ w'.Counted
  | 0, w, w', rolls, rolls', _, _, hs => by cases hs
  | fuel + 1, w, w', rolls, rolls', h, hc, hs => by
    simp only [spawnLoop] at hs
    split at hs
    · cases hs
      exact ⟨h, hc⟩
    · split at hs
      · cases hs
        exact ⟨h, hc⟩
      · split at hs
        · cases hs
        · rename_i w1 rolls1 hentry
          have hsame : SameMobs w { w with scheduledSpawns := w.scheduledSpawns.pop } :=
            ⟨rfl, rfl, le_rfl, fun _ => rfl⟩
          obtain ⟨h1, hc1⟩ := spawnEntry_capped (hsame.wf h) (hsame.counted hc) hentry
          exact spawnLoop_capped h1 hc1 hs

theorem preloadRules_capped : ∀ {is : List Nat} {w w' : SpawnWorld} {rolls rolls' : List SpawnRoll}, w.Wf → w.Counted →
    preloadRules cfg is w rolls = some (w', rolls') → w'.Wf ∧ w'.Counted
  | [], w, w', rolls, rolls', h, hc, hs => by
    cases hs
    exact ⟨h, hc⟩
  | i :: is, w, w', rolls, rolls', h, hc, hs => by
    simp only [preloadRules] at hs
    split at hs
    · exact preloadRules_capped h hc hs
    · rename_i r hr
      obtain ⟨⟨w1, rolls1⟩, hfill, hs⟩ := Option.bind_eq_some_iff.1 hs
      obtain ⟨h1, hc1⟩ := fillRule_capped h hc hr hfill
      exact preloadRules_capped h1 hc1 hs

/-! ## Cleanups -/

/-- A cleaned-up mob ends its instance exactly if it was the last living member. -/
theorem liveInstances_destroy (h : w.Wf) {mob : SpawnedMob} (hmob : mob ∈ w.mobs) {x : TemplateInstance}
    (hx : x ∈ w.spawned) (hmem : mob ∈ x.members) (hmobs : w'.mobs = w.mobs.filter fun m => m ≠ mob)
    (hspawned : w'.spawned = w.spawned) :
    (∀ j, j ≠ x.ruleIndex → w'.liveInstances j = w.liveInstances j) ∧
      (w.liveInstances x.ruleIndex).length =
        (w'.liveInstances x.ruleIndex).length + if x.outlives w mob then 0 else 1 := by
  have hothers : ∀ y : TemplateInstance, mob ∉ y.members → y.living w'.mobs = y.living w.mobs := by
    intro y hy
    rw [Bool.eq_iff_iff, TemplateInstance.living_iff, TemplateInstance.living_iff, hmobs]
    refine exists_congr fun m => and_congr_right fun hm => ?_
    have hne : m ≠ mob := fun heq => hy (heq ▸ hm)
    simp [hne]
  have hliving : x.living w.mobs = true := TemplateInstance.living_iff.2 ⟨mob, hmem, hmob⟩
  have houtlives : x.outlives w mob = x.living w'.mobs := by rw [TemplateInstance.outlives, hmobs]
  constructor
  · intro j hj
    rw [SpawnWorld.liveInstances, SpawnWorld.liveInstances, hspawned]
    refine List.filter_congr fun y hy => ?_
    by_cases hyx : mob ∈ y.members
    · rw [h.instance_unique hy hx hyx hmem]
      simp [Ne.symm hj]
    · rw [hothers y hyx]
  · obtain ⟨front, back, hsplit⟩ := List.append_of_mem hx
    have hdisjoint := h.disjoint
    rw [hsplit] at hdisjoint
    obtain ⟨_, hback, hfront⟩ := List.pairwise_append.1 hdisjoint
    have hf : ∀ y ∈ front, mob ∉ y.members := fun y hy hmem' => hfront y hy x List.mem_cons_self mob hmem' hmem
    have hb : ∀ y ∈ back, mob ∉ y.members := fun y hy hmem' => (List.pairwise_cons.1 hback).1 y hy mob hmem hmem'
    have hsame : ∀ ys : List TemplateInstance, (∀ y ∈ ys, mob ∉ y.members) →
        ys.filter (fun y => y.ruleIndex = x.ruleIndex && y.living w'.mobs) =
          ys.filter fun y => y.ruleIndex = x.ruleIndex && y.living w.mobs :=
      fun ys hys => List.filter_congr fun y hy => by rw [hothers y (hys y hy)]
    rw [houtlives, SpawnWorld.liveInstances, SpawnWorld.liveInstances, hspawned, hsplit, List.filter_append,
      List.filter_append,
      List.filter_cons, List.filter_cons, hsame front hf, hsame back hb, hliving]
    cases x.living w'.mobs with
    | false => simp; omega
    | true => simp

/-- The first rule that holds the id gives a slot back, and nothing else changes. -/
theorem releaseMobSpawnSlot_rules (w : SpawnWorld) (id : EntityId) : ∃ t, ∀ j : Nat,
    (releaseMobSpawnSlot w id).rules[j]? =
    if w.holder id = some j then w.rules[j]?.map (fun r => { r with
      entities := r.entities.filter fun e => e ≠ id
      activeInstances := r.activeInstances - 1
      respawnAt := some t }) else w.rules[j]? := by
  unfold releaseMobSpawnSlot
  cases hfind : w.holder id with
  | none => exact ⟨0, fun j => by simp⟩
  | some i =>
    obtain ⟨hlt, -, -⟩ := List.findIdx?_eq_some_iff_getElem.1 hfind
    simp only [List.getElem?_eq_getElem hlt]
    refine ⟨satAdd w.simNow (min w.rules[i].rule.regenTime u64Max), fun j => ?_⟩
    show (SpawnWorld.setRule w i _).rules[j]? = _
    rw [SpawnWorld.setRule_rules]
    simp only [Option.some.injEq]

theorem releaseMobSpawnSlot_frame (w : SpawnWorld) (id : EntityId) : (releaseMobSpawnSlot w id).spawned = w.spawned ∧
    (releaseMobSpawnSlot w id).nextEntity = w.nextEntity ∧ (releaseMobSpawnSlot w id).mobs = w.mobs := by
  unfold releaseMobSpawnSlot
  split
  · exact ⟨rfl, rfl, rfl⟩
  · split
    · exact ⟨rfl, rfl, rfl⟩
    · exact ⟨rfl, rfl, rfl⟩

/-- What a cleanup leaves of the map. -/
structure Destroyed (w : SpawnWorld) (mob : SpawnedMob) (w' : SpawnWorld) : Prop where
  onMap : mob ∈ w.mobs
  mobs : w'.mobs = w.mobs.filter fun m => m ≠ mob
  spawned : w'.spawned = w.spawned
  nextEntity : w'.nextEntity = w.nextEntity
  rules : ∃ t, ∀ j : Nat, w'.rules[j]? = if w.holder mob.netId = some j then w.rules[j]?.map (fun r => { r with
    entities := r.entities.filter fun e => e ≠ mob.netId
    activeInstances := r.activeInstances - 1
    respawnAt := some t }) else w.rules[j]?

theorem destroyed_of_eq {mob : SpawnedMob} (hs : destroyMobEntity w mob = some w') : Destroyed w mob w' := by
  unfold destroyMobEntity at hs
  split at hs
  · rename_i hmob
    cases hs
    obtain ⟨hspawned, hnext, hmobs⟩ := releaseMobSpawnSlot_frame w mob.netId
    exact ⟨hmob, by rw [← hmobs], hspawned, hnext, releaseMobSpawnSlot_rules w mob.netId⟩
  · cases hs

/-- A rule that holds an id has a mob with this id on the map, and so an instance that lives. -/
theorem SpawnWorld.Wf.holder_lives (h : w.Wf) {id : EntityId} {i : Nat} (hi : w.holder id = some i) :
    (∃ m ∈ w.population i, m.netId = id) ∧ 0 < (w.liveInstances i).length := by
  obtain ⟨hlt, hheld, -⟩ := List.findIdx?_eq_some_iff_getElem.1 hi
  obtain ⟨m, hm, hnet⟩ := h.entities i _ (List.getElem?_eq_getElem hlt) id (by simpa using hheld)
  refine ⟨⟨m, hm, hnet⟩, ?_⟩
  obtain ⟨hmob, x, hx, hindex, hmem⟩ := SpawnWorld.mem_population.1 hm
  refine List.length_pos_of_mem (List.mem_filter.2 ⟨hx, ?_⟩)
  simpa using ⟨hindex, TemplateInstance.living_iff.2 ⟨m, hmem, hmob⟩⟩

/-- Where the mobs on the map have net ids of their own and the rule of a mob holds its id, its cleanup keeps the count
right exactly if it is the last of its instance. -/
theorem keepsCount_cleanup_iff (h : w.Wf) {mob : SpawnedMob} (hown : ∀ m ∈ w.mobs, m.netId = mob.netId → m = mob)
    {x : TemplateInstance} (hx : x ∈ w.spawned) (hmem : mob ∈ x.members)
    (hheld : ∀ r, w.rules[x.ruleIndex]? = some r → mob.netId ∈ r.entities) :
    KeepsCount w (.cleanup mob) ↔ x.outlives w mob = false := by
  have hholder : w.holder mob.netId = some x.ruleIndex := by
    obtain ⟨r, hr, -⟩ := h.index x hx
    cases hfind : w.holder mob.netId with
    | none =>
      have hnone := List.findIdx?_eq_none_iff.1 hfind r (List.mem_of_getElem? hr)
      simp [hheld r hr] at hnone
    | some i =>
      obtain ⟨⟨m, hm, hnet⟩, -⟩ := h.holder_lives hfind
      obtain ⟨hon, y, hy, rfl, hmy⟩ := SpawnWorld.mem_population.1 hm
      rw [hown m hon hnet] at hmy
      rw [h.instance_unique hy hx hmy hmem]
  constructor
  · intro hkeeps
    have hrelease := hkeeps x hx hmem
    rw [hholder] at hrelease
    cases hlives : x.outlives w mob with
    | false => rfl
    | true => rw [hlives] at hrelease; cases hrelease
  · intro hlast y hy hmy
    rw [h.instance_unique hy hx hmy hmem, hholder, hlast]
    rfl

theorem Destroyed.wf {mob : SpawnedMob} (hd : Destroyed w mob w') (h : w.Wf) (hkeeps : KeepsCount w (.cleanup mob)) :
    w'.Wf := by
  obtain ⟨x, hx, hmem⟩ := h.owned mob hd.onMap
  obtain ⟨t, hrules⟩ := hd.rules
  have hpop : ∀ j m, m ∈ w'.population j ↔ m ∈ w.population j ∧ m ≠ mob := by
    intro j m
    rw [SpawnWorld.mem_population, SpawnWorld.mem_population, hd.mobs, hd.spawned]
    simp only [List.mem_filter, decide_eq_true_eq]
    tauto
  refine ⟨hd.mobs ▸ h.nodup.filter _, by rw [hd.spawned, hd.nextEntity]; exact h.known,
    hd.spawned ▸ h.disjoint, ?_, ?_, ?_⟩
  · intro m hm
    rw [hd.mobs] at hm
    rw [hd.spawned]
    exact h.owned m (List.mem_filter.1 hm).1
  · intro y hy
    rw [hd.spawned] at hy
    obtain ⟨r, hr, hlen⟩ := h.index y hy
    rw [hrules, hr]
    split
    · exact ⟨_, rfl, hlen⟩
    · exact ⟨r, rfl, hlen⟩
  · intro j q hq id hid
    rw [hrules] at hq
    -- an id that the rule of the mob still holds is not the mob's, and no other rule has lost one
    have hstill : ∀ q0, w.rules[j]? = some q0 → id ∈ q0.entities → (j = x.ruleIndex → id ≠ mob.netId) →
        ∃ m ∈ w'.population j, m.netId = id := by
      intro q0 hq0 hid hne
      obtain ⟨m, hm, hnet⟩ := h.entities j q0 hq0 id hid
      refine ⟨m, (hpop j m).2 ⟨hm, ?_⟩, hnet⟩
      rintro rfl
      obtain ⟨_, y, hy, hi, hmy⟩ := SpawnWorld.mem_population.1 hm
      rw [h.instance_unique hy hx hmy hmem] at hi
      exact hne hi.symm hnet.symm
    have hrelease := hkeeps x hx hmem
    split at hq
    · obtain ⟨q0, hq0, rfl⟩ := Option.map_eq_some_iff.1 hq
      obtain ⟨hid, hne⟩ := List.mem_filter.1 hid
      exact hstill q0 hq0 hid fun _ => of_decide_eq_true hne
    · rename_i hother
      refine hstill q hq hid ?_
      rintro rfl rfl
      -- the rule of the mob holds its id, so some rule does, and that is the one that gives a slot back
      cases hlives : x.outlives w mob with
      | false =>
        rw [hlives] at hrelease
        exact hother hrelease
      | true =>
        rw [hlives, if_pos rfl] at hrelease
        have hnone := List.findIdx?_eq_none_iff.1 hrelease q (List.mem_of_getElem? hq)
        simp [hid] at hnone

/-- A cleanup keeps the count right exactly if the rule of the mob gives a slot back for the last of the instance, or no
rule does for another. -/
theorem Destroyed.counted {mob : SpawnedMob} (hd : Destroyed w mob w') (h : w.Wf) (hc : w.Counted) :
    w'.Counted ↔ KeepsCount w (.cleanup mob) := by
  obtain ⟨x, hx, hmem⟩ := h.owned mob hd.onMap
  obtain ⟨t, hrules⟩ := hd.rules
  obtain ⟨hothers, hlen⟩ := liveInstances_destroy h hd.onMap hx hmem hd.mobs hd.spawned
  obtain ⟨r, hr, _⟩ := h.index x hx
  have hone : KeepsCount w (.cleanup mob) ↔ w.holder mob.netId = if x.outlives w mob then none
      else some x.ruleIndex := by
    refine ⟨fun hkeeps => hkeeps x hx hmem, fun hx' y hy hmy => ?_⟩
    rw [h.instance_unique hy hx hmy hmem]
    exact hx'
  rw [hone]
  constructor
  · intro hc'
    cases hholder : w.holder mob.netId with
    | none =>
      -- nothing is counted down, so no instance has ended
      have hr' := hrules x.ruleIndex
      rw [hholder, if_neg (by simp), hr] at hr'
      have hafter := (hc' _ _ hr').1
      have hbefore := (hc _ _ hr).1
      cases hlives : x.outlives w mob with
      | true => rfl
      | false =>
        rw [hlives] at hlen
        simp only [Bool.false_eq_true, if_false] at hlen
        omega
    | some i =>
      -- the rule that gives the slot back has one less to count
      obtain ⟨-, hpos⟩ := h.holder_lives hholder
      obtain ⟨hlt, -, -⟩ := List.findIdx?_eq_some_iff_getElem.1 hholder
      have hq : w.rules[i]? = some w.rules[i] := List.getElem?_eq_getElem hlt
      generalize w.rules[i] = q at hq
      have hq' := hrules i
      rw [hholder, if_pos rfl, hq, Option.map_some] at hq'
      have hafter := (hc' _ _ hq').1
      have hbefore := (hc _ _ hq).1
      dsimp only at hafter
      by_cases hi : i = x.ruleIndex
      · subst hi
        cases hlives : x.outlives w mob with
        | false => rfl
        | true =>
          rw [hlives, if_pos rfl] at hlen
          omega
      · rw [hothers i hi] at hafter
        omega
  · intro hrelease j q hq
    rw [hrules] at hq
    split at hq
    · rename_i hj
      obtain ⟨q0, hq0, rfl⟩ := Option.map_eq_some_iff.1 hq
      obtain ⟨hcount, hcap⟩ := hc j q0 hq0
      rw [hrelease] at hj
      cases hlives : x.outlives w mob with
      | true => rw [hlives] at hj; cases hj
      | false =>
        rw [hlives] at hj hlen
        cases hj
        simp only [Bool.false_eq_true, if_false] at hlen
        dsimp only
        omega
    · rename_i hj
      obtain ⟨hcount, hcap⟩ := hc j q hq
      by_cases hjx : j = x.ruleIndex
      · subst hjx
        rw [hrelease] at hj
        cases hlives : x.outlives w mob with
        | true =>
          rw [hlives, if_pos rfl, Nat.add_zero] at hlen
          exact ⟨by rw [hcount, hlen], hcap⟩
        | false => rw [hlives] at hj; exact absurd rfl hj
      · rw [hothers j hjx]
        exact ⟨hcount, hcap⟩

/-! ## Runs -/

theorem spawnStep_capped {ev : SpawnEvent} (h : w.Wf) (hc : w.Counted) (hs : spawnStep cfg w ev = some w') :
    (w'.Counted ↔ KeepsCount w ev) ∧ (KeepsCount w ev → w'.Wf) := by
  cases ev with
  | preload rolls =>
    simp only [spawnStep] at hs
    split at hs
    · rename_i w1 hpre
      cases hs
      obtain ⟨⟨w2, rolls2⟩, hpre, heq⟩ := Option.map_eq_some_iff.1 hpre
      cases heq
      obtain ⟨h2, hc2⟩ := preloadRules_capped h hc hpre
      have hsame :
          SameMobs w2
            { w2 with rules := w2.rules.map fun r => { r with respawnAt := none }, scheduledSpawns := .empty } := by
        refine ⟨rfl, rfl, le_rfl, fun i => ?_⟩
        rw [List.getElem?_map, Option.map_map]
        rfl
      exact ⟨iff_of_true (hsame.counted hc2) trivial, fun _ => hsame.wf h2⟩
    · cases hs
  | tick now rolls =>
    simp only [spawnStep] at hs
    split at hs
    · rename_i w1 hloop
      cases hs
      have hsame : SameMobs w { w with simNow := now } := ⟨rfl, rfl, le_rfl, fun _ => rfl⟩
      obtain ⟨h1, hc1⟩ := spawnLoop_capped (hsame.wf h) (hsame.counted hc) hloop
      exact ⟨iff_of_true hc1 trivial, fun _ => h1⟩
    · cases hs
  | cleanup mob =>
    have hd := destroyed_of_eq hs
    exact ⟨hd.counted h hc, hd.wf h⟩
  | reserveNetId =>
    cases hs
    have hsame : SameMobs w w.takeNetId.2 := ⟨rfl, rfl, le_rfl, fun _ => rfl⟩
    exact ⟨iff_of_true (hsame.counted hc) trivial, fun _ => hsame.wf h⟩

theorem SpawnWorld.start_wf (rules : List SpawnRule) (now : Nat) : (SpawnWorld.start rules now).Wf := by
  refine ⟨List.nodup_nil, by rintro x ⟨⟩, List.Pairwise.nil, by rintro e ⟨⟩, by rintro x ⟨⟩, fun i r hr id hid => ?_⟩
  simp only [SpawnWorld.start, List.getElem?_map, Option.map_eq_some_iff] at hr
  obtain ⟨rule, _, rfl⟩ := hr
  cases hid

theorem SpawnWorld.start_counted (rules : List SpawnRule) (now : Nat) : (SpawnWorld.start rules now).Counted := by
  intro i r hr
  simp only [SpawnWorld.start, List.getElem?_map, Option.map_eq_some_iff] at hr
  obtain ⟨rule, _, rfl⟩ := hr
  exact ⟨rfl, Nat.zero_le _⟩

/-- For every list of rules and every run of preloads, ticks and cleanups in any order: in every state of the run each
rule counts exactly its living instances, is not above its cap, and has no more mobs on the map than its cap allows, if
and only if every mob that is cleaned up is the last of its instance and is found under the rule that brought it first,
or is found under no rule any more while another member is on the map. -/
theorem spawn_cap {rules : List SpawnRule} {now : Nat} {es : List SpawnEvent}
    (hr : run (spawnStep cfg) (.start rules now) es = some w) :
    Along (spawnStep cfg) SpawnWorld.Capped (.start rules now) es ↔
      Meets (spawnStep cfg) KeepsCount (.start rules now) es := by
  refine along_iff_meets_of_kept (I := SpawnWorld.Wf) (fun w ev w' h hc hs => ?_) (SpawnWorld.start_wf rules now)
    ((SpawnWorld.start_wf rules now).capped_iff.2 (SpawnWorld.start_counted rules now)) hr
  obtain ⟨hiff, hkept⟩ := spawnStep_capped h (h.capped_iff.1 hc) hs
  refine ⟨⟨fun hc' => hiff.1 fun i r hr => ⟨(hc' i r hr).1, (hc' i r hr).2.1⟩, fun hk => ?_⟩, hkept⟩
  exact (hkept hk).capped_iff.2 (hiff.2 hk)

end

/-! ## The runs -/

/-- The wolf is killed and comes back. -/
def wolfReturnsEvents : List SpawnEvent := [.preload [found], .reserveNetId, .cleanup ⟨0, ⟨1⟩⟩, .tick 60000 [found]]

theorem spawn_cap_wolfReturns :
    ∃ w, run (spawnStep wolfConfig) (.start [wolfRule] 0) wolfReturnsEvents = some w ∧ w.mobs = [⟨1, ⟨3⟩⟩] ∧
      Along (spawnStep wolfConfig) SpawnWorld.Capped (.start [wolfRule] 0) wolfReturnsEvents := by
  have hmeets : Meets (spawnStep wolfConfig) KeepsCount (.start [wolfRule] 0) wolfReturnsEvents := by decide +kernel
  have hrun : (run (spawnStep wolfConfig) (.start [wolfRule] 0) wolfReturnsEvents).map SpawnWorld.mobs =
      some [⟨1, ⟨3⟩⟩] := by
    decide +kernel
  obtain ⟨w, hw, hmobs⟩ := Option.map_eq_some_iff.1 hrun
  exact ⟨w, hw, hmobs, (spawn_cap hw).2 hmeets⟩

/-- Two wolves at a time, once. -/
def packRule : SpawnRule := ⟨.group [⟨101⟩, ⟨101⟩], 1, 1000⟩

def packFound : SpawnRoll := ⟨0, [true, true]⟩

/-- One of the two wolves is killed, and a second pack comes beside the other: two instances and three wolves where the
cap is one pack of two. -/
theorem spawn_cap_pack :
    ∃ w r, run (spawnStep wolfConfig) (.start [packRule] 0)
      [.preload [packFound], .cleanup ⟨0, ⟨1⟩⟩, .tick 1000 [packFound]] = some w ∧
      w.rules[0]? = some r ∧ r.rule.maxCount = 1 ∧ r.activeInstances = 1 ∧ (w.liveInstances 0).length = 2 ∧
      (w.population 0).length = 3 ∧ ¬ w.Capped := by
  have hrun : ((run (spawnStep wolfConfig) (.start [packRule] 0)
      [.preload [packFound], .cleanup ⟨0, ⟨1⟩⟩, .tick 1000 [packFound]]).bind fun w => w.rules[0]?.map fun r =>
        (r.rule.maxCount, r.activeInstances, (w.liveInstances 0).length, (w.population 0).length)) =
          some (1, 1, 2, 3) := by
    decide +kernel
  obtain ⟨w, hw, hp⟩ := Option.bind_eq_some_iff.1 hrun
  obtain ⟨r, hr, hp⟩ := Option.map_eq_some_iff.1 hp
  simp only [Prod.mk.injEq] at hp
  obtain ⟨hmax, hactive, hlive, hpop⟩ := hp
  refine ⟨w, r, hw, hr, hmax, hactive, hlive, hpop, fun hc => ?_⟩
  have := (hc 0 r hr).1
  omega

end Zohar.Spawn
