/-
The pick among the weighted groups of a spawn template, in the 32 bits that it is computed in. From
zohar-sim/src/runtime/spatial.rs, with the weights as build_spawn_rules of zohar-core/src/adapters/content.rs leaves
them. A sum that does not fit in a `u32` panics where the build checks for overflow and wraps where it does not.
-/
import Mathlib.Algebra.BigOperators.Group.List.Basic
import Mathlib.Tactic

namespace Zohar.Spawn

structure MobId where
  raw : Nat
  deriving DecidableEq, Repr

end Zohar.Spawn

namespace Zohar.Tickets

open Zohar.Spawn (MobId)

/-! ## Arithmetic -/

/-- `+` of `u32`: `none` is the panic of a build with overflow checks. -/
def addU32 (checks : Bool) (a b : UInt32) : Option UInt32 :=
  if 4294967295 < a.toNat + b.toNat ∧ checks = true then none else some (a + b)

/-- `-=` of `u32`. -/
def subU32 (checks : Bool) (a b : UInt32) : Option UInt32 := if a < b ∧ checks = true then none else some (a - b)

/-- `Iterator::sum`. -/
def sumU32 (checks : Bool) : UInt32 → List UInt32 → Option UInt32
  | total, [] => some total
  | total, weight :: weights => (addU32 checks total weight).bind fun total => sumU32 checks total weights

/-! ## Choices -/

structure WeightedGroupChoice where
  members : List MobId
  weight : UInt32
  deriving DecidableEq, Repr

/-- A row of `mob_group_group_entries`, with the columns that are read. -/
structure MobGroupGroupEntry where
  groupId : Int
  weight : Int
  deriving DecidableEq, Repr

/-- One entry in `build_spawn_rules`: it is left out if there is no such group, or if the weight is no `u32`. -/
def weightedChoice (mobGroups : Int → Option (List MobId)) (entry : MobGroupGroupEntry) : Option WeightedGroupChoice :=
  (mobGroups entry.groupId).bind fun members =>
    if max entry.weight 1 ≤ 4294967295 then some ⟨members, .ofNat (max entry.weight 1).toNat⟩ else none

def weightedChoices (mobGroups : Int → Option (List MobId)) (entries : List MobGroupGroupEntry) :
    List WeightedGroupChoice :=
  entries.filterMap (weightedChoice mobGroups)

/-! ## The pick -/

/-- Where `pick_group_group_choice` returns: in the loop, with the choice it is at, or after it, with the last
choice. -/
inductive Picked where
  | choice (i : Nat)
  | last
  deriving DecidableEq, Repr

/-- The loop, which is at the choice number `i`. -/
def takeTicket (checks : Bool) : Nat → List WeightedGroupChoice → UInt32 → Option Picked
  | _, [], _ => some .last
  | i, choice :: choices, ticket =>
    let weight := max choice.weight 1
    if ticket ≤ weight then some (.choice i)
    else (subU32 checks ticket weight).bind fun ticket => takeTicket checks (i + 1) choices ticket

def totalWeight (checks : Bool) (choices : List WeightedGroupChoice) : Option UInt32 :=
  sumU32 checks 0 (choices.map fun choice => max choice.weight 1)

/-- `randomRange` is `rng.random_range(1..=total_weight)`. -/
def pickGroupGroupChoice (checks : Bool) (choices : List WeightedGroupChoice) (randomRange : UInt32 → UInt32) :
    Option (Option Picked) :=
  (totalWeight checks choices).bind fun totalWeight =>
    if totalWeight = 0 then some none else (takeTicket checks 0 choices (randomRange totalWeight)).map some

/-! ## Shares -/

/-- The sum of the weights, in as many bits as it takes. -/
def weightSum (choices : List WeightedGroupChoice) : Nat := (choices.map fun choice => choice.weight.toNat).sum

/-- The total is the sum of the weights, and of the tickets up to it each choice has as many as its weight is and the
fallback has none. -/
structure FairTickets (checks : Bool) (choices : List WeightedGroupChoice) (total : UInt32) : Prop where
  summed : totalWeight checks choices = some total
  exact : total.toNat = weightSum choices
  shares : ∀ i choice, choices[i]? = some choice → ((Finset.Icc 1 total.toNat).filter fun ticket =>
    takeTicket checks 0 choices (.ofNat ticket) = some (.choice i)).card = choice.weight.toNat
  inLoop : ∀ ticket ∈ Finset.Icc 1 total.toNat, ∃ i, i < choices.length ∧
    takeTicket checks 0 choices (.ofNat ticket) = some (.choice i)

/-! ## The weights -/

section Weights

variable {checks : Bool} {mobGroups : Int → Option (List MobId)} {entries : List MobGroupGroupEntry}
  {choices : List WeightedGroupChoice}

/-- No choice has no weight. -/
def Weighed (choices : List WeightedGroupChoice) : Prop := ∀ choice ∈ choices, 1 ≤ choice.weight.toNat

theorem weighed_weightedChoices : Weighed (weightedChoices mobGroups entries) := by
  intro choice hchoice
  obtain ⟨entry, -, h⟩ := List.mem_filterMap.1 hchoice
  obtain ⟨members, -, h⟩ := Option.bind_eq_some_iff.1 h
  obtain ⟨hfits, h⟩ := Option.ite_none_right_eq_some.1 h
  cases h
  show 1 ≤ (UInt32.ofNat (max entry.weight 1).toNat).toNat
  rw [UInt32.toNat_ofNat_of_lt' (by simp only [UInt32.size]; omega)]
  omega

theorem max_weight {choice : WeightedGroupChoice} (h : 1 ≤ choice.weight.toNat) :
    max choice.weight 1 = choice.weight := by
  show (if choice.weight ≤ 1 then 1 else choice.weight) = choice.weight
  split
  · rename_i hle
    apply UInt32.toNat_inj.1
    have hle := UInt32.le_iff_toNat_le.1 hle
    have hone : (1 : UInt32).toNat = 1 := rfl
    omega
  · rfl

theorem map_max_weight (h : Weighed choices) :
    choices.map (fun choice => max choice.weight 1) = choices.map WeightedGroupChoice.weight :=
  List.map_congr_left fun choice hchoice => max_weight (h choice hchoice)

/-- A sum that fits is the sum, whatever the build does with one that does not. -/
theorem sumU32_of_le (checks : Bool) : ∀ (weights : List UInt32) (total : UInt32),
    total.toNat + (weights.map UInt32.toNat).sum ≤ 4294967295 → ∃ sum, sumU32 checks total weights = some sum ∧
      sum.toNat = total.toNat + (weights.map UInt32.toNat).sum
  | [], total, _ => ⟨total, rfl, rfl⟩
  | weight :: weights, total, h => by
    rw [List.map_cons, List.sum_cons] at h ⊢
    have hadd : addU32 checks total weight = some (total + weight) := if_neg (by omega)
    have hnat : (total + weight).toNat = total.toNat + weight.toNat := by
      rw [UInt32.toNat_add]
      omega
    obtain ⟨sum, hsum, hsumNat⟩ := sumU32_of_le checks weights (total + weight) (by omega)
    refine ⟨sum, ?_, by omega⟩
    rw [sumU32, hadd, Option.bind_some, hsum]

theorem totalWeight_of_le (checks : Bool) (h : Weighed choices) (hle : weightSum choices ≤ 4294967295) :
    ∃ total, totalWeight checks choices = some total ∧ total.toNat = weightSum choices := by
  have hzero : (0 : UInt32).toNat = 0 := rfl
  have hmap : (choices.map WeightedGroupChoice.weight).map UInt32.toNat = choices.map fun choice =>
      choice.weight.toNat :=
    List.map_map
  obtain ⟨total, htotal, hnat⟩ := sumU32_of_le checks (choices.map WeightedGroupChoice.weight) 0 (by
    rw [hmap, hzero, Nat.zero_add]
    exact hle)
  refine ⟨total, ?_, ?_⟩
  · rw [totalWeight, map_max_weight h, htotal]
  · rw [hnat, hmap, hzero, Nat.zero_add]
    rfl

/-! ## The tickets -/

/-- How many tickets come before those of the choice number `k`. -/
def ticketsBefore (choices : List WeightedGroupChoice) (k : Nat) : Nat := weightSum (choices.take k)

theorem ticketsBefore_succ {k : Nat} {choice : WeightedGroupChoice} (h : choices[k]? = some choice) :
    ticketsBefore choices (k + 1) = ticketsBefore choices k + choice.weight.toNat := by
  unfold ticketsBefore weightSum
  rw [List.take_add_one, h, List.map_append, List.sum_append]
  rfl

theorem ticketsBefore_mono {k l : Nat} (h : k ≤ l) : ticketsBefore choices k ≤ ticketsBefore choices l := by
  obtain ⟨d, rfl⟩ := Nat.exists_eq_add_of_le h
  unfold ticketsBefore weightSum
  rw [List.take_add, List.map_append, List.sum_append]
  omega

theorem ticketsBefore_le (k : Nat) : ticketsBefore choices k ≤ weightSum choices := by
  unfold ticketsBefore weightSum
  conv_rhs => rw [← List.take_append_drop k choices, List.map_append, List.sum_append]
  omega

/-- Each ticket up to the sum of the weights is taken by the choice in whose share it lies. -/
theorem takeTicket_spec (checks : Bool) : ∀ (choices : List WeightedGroupChoice) (i : Nat) (ticket : UInt32),
    Weighed choices →
    1 ≤ ticket.toNat → ticket.toNat ≤ weightSum choices → ∃ k, k < choices.length ∧
      ticketsBefore choices k < ticket.toNat ∧ ticket.toNat ≤ ticketsBefore choices (k + 1) ∧
      takeTicket checks i choices ticket = some (.choice (i + k))
  | [], i, ticket, _, hlow, hhigh => absurd (hlow.trans hhigh) (by simp [weightSum])
  | choice :: choices, i, ticket, hw, hlow, hhigh => by
    have hweight := max_weight (hw choice List.mem_cons_self)
    rw [takeTicket]
    simp only [hweight]
    by_cases hfirst : ticket ≤ choice.weight
    · refine ⟨0, Nat.succ_pos _, ?_, ?_, if_pos hfirst⟩
      · exact hlow
      · rw [ticketsBefore_succ (List.getElem?_cons_zero)]
        exact (UInt32.le_iff_toNat_le.1 hfirst).trans (Nat.le_add_left _ _)
    · -- the ticket lies beyond the first share, and the loop goes on with what is left of it
      have hlt : choice.weight.toNat < ticket.toNat := by
        rw [UInt32.le_iff_toNat_le] at hfirst
        omega
      have hsub : subU32 checks ticket choice.weight = some (ticket - choice.weight) :=
        if_neg fun h => by
          have := UInt32.lt_iff_toNat_lt.1 h.1
          omega
      have hnat : (ticket - choice.weight).toNat = ticket.toNat - choice.weight.toNat :=
        UInt32.toNat_sub_of_le _ _ (UInt32.le_iff_toNat_le.2 hlt.le)
      have hsum : weightSum (choice :: choices) = choice.weight.toNat + weightSum choices := rfl
      obtain ⟨k, hk, hbefore, hafter, htake⟩ := takeTicket_spec checks choices (i + 1) (ticket - choice.weight)
        (fun c hc => hw c (List.mem_cons_of_mem _ hc)) (by omega) (by omega)
      have hcons : ∀ n, ticketsBefore (choice :: choices) (n + 1) = choice.weight.toNat + ticketsBefore choices n :=
        fun _ => rfl
      refine ⟨k + 1, Nat.succ_lt_succ hk, ?_, ?_, ?_⟩
      · rw [hcons]; omega
      · rw [hcons]; omega
      · rw [if_neg hfirst, hsub, Option.bind_some, htake]
        congr 2
        omega

/-- The tickets of a choice are those of its share. -/
theorem takeTicket_eq_iff (hw : Weighed choices) {ticket k : Nat} {choice : WeightedGroupChoice}
    (hk : choices[k]? = some choice) (hlow : 1 ≤ ticket) (hhigh : ticket ≤ weightSum choices)
    (hfits : weightSum choices ≤ 4294967295) : takeTicket checks 0 choices (.ofNat ticket) = some (.choice k) ↔
      ticketsBefore choices k < ticket ∧ ticket ≤ ticketsBefore choices (k + 1) := by
  have hnat : (UInt32.ofNat ticket).toNat = ticket := UInt32.toNat_ofNat_of_lt' (by simp only [UInt32.size]; omega)
  obtain ⟨l, -, hbefore, hafter, htake⟩ := takeTicket_spec checks choices 0 (.ofNat ticket) hw (by omega) (by omega)
  rw [hnat] at hbefore hafter
  rw [htake, Nat.zero_add]
  constructor
  · intro h
    cases h
    exact ⟨hbefore, hafter⟩
  · rintro ⟨hbefore', hafter'⟩
    -- two shares that have a ticket in common are the same
    obtain hlt | rfl | hgt := Nat.lt_trichotomy l k
    · have hmono : ticketsBefore choices (l + 1) ≤ ticketsBefore choices k := ticketsBefore_mono hlt
      omega
    · rfl
    · have hmono : ticketsBefore choices (k + 1) ≤ ticketsBefore choices l := ticketsBefore_mono hgt
      omega

theorem fairTickets_of_le (checks : Bool) (hw : Weighed choices) (hfits : weightSum choices ≤ 4294967295) :
    ∃ total, FairTickets checks choices total := by
  obtain ⟨total, htotal, hnat⟩ := totalWeight_of_le checks hw hfits
  refine ⟨total, htotal, hnat, ?_, ?_⟩
  · intro i choice hi
    -- the tickets of a choice are those behind the weights before it, as many as its own weight
    have hshare : ((Finset.Icc 1 total.toNat).filter fun ticket =>
        takeTicket checks 0 choices (.ofNat ticket) = some (.choice i)) =
          Finset.Ioc (ticketsBefore choices i) (ticketsBefore choices (i + 1)) := by
      ext ticket
      rw [Finset.mem_filter, Finset.mem_Icc, Finset.mem_Ioc, hnat]
      constructor
      · rintro ⟨⟨hlow, hhigh⟩, htake⟩
        exact (takeTicket_eq_iff hw hi hlow hhigh hfits).1 htake
      · rintro ⟨hbefore, hafter⟩
        have hhigh : ticket ≤ weightSum choices := hafter.trans (ticketsBefore_le (i + 1))
        have hlow : 1 ≤ ticket := by omega
        exact ⟨⟨hlow, hhigh⟩, (takeTicket_eq_iff hw hi hlow hhigh hfits).2 ⟨hbefore, hafter⟩⟩
    rw [hshare, Nat.card_Ioc, ticketsBefore_succ hi]
    omega
  · intro ticket hticket
    obtain ⟨hlow, hhigh⟩ := Finset.mem_Icc.1 hticket
    rw [hnat] at hhigh
    have hof : (UInt32.ofNat ticket).toNat = ticket := UInt32.toNat_ofNat_of_lt' (by simp only [UInt32.size]; omega)
    obtain ⟨k, hk, -, -, htake⟩ := takeTicket_spec checks choices 0 (.ofNat ticket) hw (by omega) (by omega)
    rw [Nat.zero_add] at htake
    exact ⟨k, hk, htake⟩

/-- The choices that the content gives are picked by their weights exactly if the weights add up to a `u32`. -/
theorem group_choice_fair_iff (checks : Bool) (mobGroups : Int → Option (List MobId))
    (entries : List MobGroupGroupEntry) :
    (∃ total, FairTickets checks (weightedChoices mobGroups entries) total) ↔
      weightSum (weightedChoices mobGroups entries) ≤ 4294967295 := by
  constructor
  · rintro ⟨total, h⟩
    have hlt := total.toNat_lt
    have heq := h.exact
    omega
  · exact fairTickets_of_le checks weighed_weightedChoices

/-- One group with the greatest weight and one with the least. -/
def heavyEntries : List MobGroupGroupEntry := [⟨1, 4294967295⟩, ⟨2, 1⟩]

def wolves : Int → Option (List MobId) := fun _ => some [⟨101⟩]

/-- Checked, the sum of the weights panics; unchecked, it is zero and no choice is picked. -/
theorem group_choice_overflows :
    (¬ (∃ total, FairTickets true (weightedChoices wolves heavyEntries) total) ∧
      pickGroupGroupChoice true (weightedChoices wolves heavyEntries) id = none) ∧
    (¬ (∃ total, FairTickets false (weightedChoices wolves heavyEntries) total) ∧
      pickGroupGroupChoice false (weightedChoices wolves heavyEntries) id = some none) := by
  have hsum : weightSum (weightedChoices wolves heavyEntries) = 4294967296 := by decide +kernel
  have hunfair : ∀ checks, ¬ ∃ total, FairTickets checks (weightedChoices wolves heavyEntries) total := by
    -- a fair total is the sum of the weights, and no `u32` is
    rintro checks ⟨total, h⟩
    have hlt := total.toNat_lt
    have heq := h.exact
    omega
  exact ⟨⟨hunfair true, by decide +kernel⟩, hunfair false, by decide +kernel⟩

/-! ## Builds -/

theorem addU32_unchecked {a b sum : UInt32} (h : addU32 checks a b = some sum) : addU32 false a b = some sum := by
  unfold addU32 at h ⊢
  split at h
  · cases h
  · simpa using h

theorem sumU32_unchecked : ∀ {weights : List UInt32} {total sum : UInt32}, sumU32 checks total weights = some sum →
    sumU32 false total weights = some sum
  | [], _, _, h => h
  | weight :: weights, total, sum, h => by
    obtain ⟨next, hadd, hsum⟩ := Option.bind_eq_some_iff.1 h
    rw [sumU32, addU32_unchecked hadd, Option.bind_some]
    exact sumU32_unchecked hsum

/-- What is taken from a ticket is no more than it, so that no build panics in the loop. -/
theorem takeTicket_checks : ∀ (choices : List WeightedGroupChoice) (i : Nat) (ticket : UInt32),
    ∃ picked, ∀ checks, takeTicket checks i choices ticket = some picked
  | [], _, _ => ⟨.last, fun _ => rfl⟩
  | choice :: choices, i, ticket => by
    by_cases hfirst : ticket ≤ max choice.weight 1
    · exact ⟨.choice i, fun _ => if_pos hfirst⟩
    · obtain ⟨picked, hpicked⟩ := takeTicket_checks choices (i + 1) (ticket - max choice.weight 1)
      refine ⟨picked, ?_⟩
      intro checks
      have hlt : ¬ (ticket < max choice.weight 1 ∧ checks = true) := by
        rintro ⟨hlt, -⟩
        exact hfirst (UInt32.le_of_lt hlt)
      rw [takeTicket]
      simp only [if_neg hfirst, subU32, if_neg hlt, Option.bind_some]
      exact hpicked checks

/-- A build that gets through the pick, because it does not check for overflow or because the weights add up to a `u32`,
picks what every build without overflow checks picks. -/
theorem pickGroupGroupChoice_unchecked {randomRange : UInt32 → UInt32} {picked : Option Picked}
    (h : pickGroupGroupChoice checks choices randomRange = some picked) :
    pickGroupGroupChoice false choices randomRange = some picked := by
  obtain ⟨total, hsum, h⟩ := Option.bind_eq_some_iff.1 h
  have hunchecked : totalWeight false choices = some total := sumU32_unchecked hsum
  rw [pickGroupGroupChoice, hunchecked, Option.bind_some]
  split at h
  · rename_i hzero
    rw [if_pos hzero]
    exact h
  · rename_i hzero
    obtain ⟨taken, htaken⟩ := takeTicket_checks choices 0 (randomRange total)
    rw [htaken checks] at h
    rw [if_neg hzero, htaken false]
    exact h

end Weights

end Zohar.Tickets
