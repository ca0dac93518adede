/-
The statistics of an actor: the enumeration in its declaration order, the role and the modifier
channel of each statistic, the store that holds one 32-bit value for each of them, and change sets,
which iterate in declaration order. From zohar-domain/src/stat.rs and zohar-gameplay/src/stats/game
(stat.rs, store.rs, change_set.rs, contribution.rs, progression.rs, resource.rs).
-/
import Mathlib.Data.Finset.Basic
import Mathlib.Tactic
import Zohar.Lib.MachineInt

namespace Zohar.Stats

open Zohar.Lib

/-! ## Statistics -/

inductive Stat where
  | level | exp | nextExp | hp | maxHp | sp | maxSp | stamina | maxStamina | gold | st | ht | dx | iq
  | defGrade | attSpeed | attGrade | movSpeed | displayedDefGrade | castingSpeed | magicAttGrade
  | magicDefGrade | levelStep | statPoints | hpRecovery | spRecovery | immuneStun | immuneSlow
  | immuneFall | partyTankerBonus | attGradeBonus | defGradeBonus | magicAttGradeBonus
  | magicDefGradeBonus | partySkillMasterBonus | polymorph | mount | partyHasteBonus
  | partyDefenderBonus | statResetCount | maxHpPct | maxSpPct | armorDefence | maxHpPrePctBonus
  | bonusMaxHp | bonusMaxSp | bonusMaxStamina
  deriving DecidableEq, Repr

/-- Every statistic once, in the order that iteration follows. -/
def Stat.all : List Stat :=
  [.level, .exp, .nextExp, .hp, .maxHp, .sp, .maxSp, .stamina, .maxStamina, .gold, .st, .ht, .dx, .iq,
   .defGrade, .attSpeed, .attGrade, .movSpeed, .displayedDefGrade, .castingSpeed, .magicAttGrade,
   .magicDefGrade, .levelStep, .statPoints, .hpRecovery, .spRecovery, .immuneStun, .immuneSlow,
   .immuneFall, .partyTankerBonus, .attGradeBonus, .defGradeBonus, .magicAttGradeBonus,
   .magicDefGradeBonus, .partySkillMasterBonus, .polymorph, .mount, .partyHasteBonus,
   .partyDefenderBonus, .statResetCount, .maxHpPct, .maxSpPct, .armorDefence, .maxHpPrePctBonus,
   .bonusMaxHp, .bonusMaxSp, .bonusMaxStamina]

theorem Stat.mem_all (s : Stat) : s ∈ Stat.all := by cases s <;> decide

inductive StatRole where
  | persistent | runtimeResource | computed | modifierAccumulator | runtimeIdentity
  deriving DecidableEq, Repr

def Stat.role : Stat → StatRole
  | .level | .exp | .nextExp | .gold | .st | .ht | .dx | .iq | .statPoints | .statResetCount => .persistent
  | .hp | .sp | .stamina | .hpRecovery | .spRecovery => .runtimeResource
  | .maxHp | .maxSp | .maxStamina | .levelStep | .defGrade | .attSpeed | .attGrade | .movSpeed
  | .displayedDefGrade | .castingSpeed | .magicAttGrade | .magicDefGrade => .computed
  | .bonusMaxHp | .bonusMaxSp | .bonusMaxStamina | .armorDefence | .maxHpPrePctBonus | .immuneStun
  | .immuneSlow | .immuneFall | .partyTankerBonus | .attGradeBonus | .defGradeBonus | .magicAttGradeBonus
  | .magicDefGradeBonus | .partySkillMasterBonus | .partyHasteBonus | .partyDefenderBonus | .maxHpPct
  | .maxSpPct => .modifierAccumulator
  | .polymorph | .mount => .runtimeIdentity

inductive StatContributionKind where
  | additiveScalar | cappedPercentage | flagCounter
  deriving DecidableEq, Repr

def Stat.contributionKind : Stat → Option StatContributionKind
  | .maxHpPct | .maxSpPct => some .cappedPercentage
  | .immuneStun | .immuneSlow | .immuneFall => some .flagCounter
  | .st | .ht | .dx | .iq | .defGrade | .attSpeed | .attGrade | .movSpeed | .castingSpeed | .magicAttGrade
  | .magicDefGrade | .bonusMaxHp | .bonusMaxSp | .bonusMaxStamina | .armorDefence | .maxHpPrePctBonus
  | .partyTankerBonus | .attGradeBonus | .defGradeBonus | .magicAttGradeBonus | .magicDefGradeBonus
  | .partySkillMasterBonus | .partyHasteBonus | .partyDefenderBonus => some .additiveScalar
  | _ => none

def Stat.acceptsSourceContribution (s : Stat) : Bool := s.contributionKind.isSome

/-! ## Values -/

/-- One 32-bit value for each statistic. -/
@[ext] structure PointValueStore where
  values : Stat → Int

namespace PointValueStore

def new : PointValueStore := ⟨fun _ => 0⟩

def get (p : PointValueStore) (s : Stat) : Int := p.values s

def set (p : PointValueStore) (s : Stat) (v : Int) : PointValueStore :=
  ⟨fun t => if t = s then v else p.values t⟩

/-- `values[key] += delta`, unchecked. -/
def add (p : PointValueStore) (s : Stat) (d : Int) : PointValueStore := p.set s (addI32 (p.get s) d)

/-- The non-zero values, in declaration order. -/
def iter (p : PointValueStore) : List (Stat × Int) :=
  (Stat.all.filter fun s => decide (p.get s ≠ 0)).map fun s => (s, p.get s)

@[simp] theorem get_new (s : Stat) : new.get s = 0 := rfl

@[simp] theorem get_set_self (p : PointValueStore) (s : Stat) (v : Int) : (p.set s v).get s = v := by
  simp [get, set]

theorem get_set (p : PointValueStore) (s t : Stat) (v : Int) :
    (p.set s v).get t = if t = s then v else p.get t := rfl

theorem get_set_of_ne {p : PointValueStore} {s t : Stat} {v : Int} (h : t ≠ s) : (p.set s v).get t = p.get t := by
  rw [get_set, if_neg h]

theorem get_add (p : PointValueStore) (s t : Stat) (d : Int) :
    (p.add s d).get t = if t = s then addI32 (p.get s) d else p.get t := rfl

theorem ext_get {p q : PointValueStore} (h : ∀ s, p.get s = q.get s) : p = q :=
  PointValueStore.ext (funext h)

@[simp] theorem set_get_self (p : PointValueStore) (s : Stat) : p.set s (p.get s) = p := by
  refine ext_get fun t => ?_
  rw [get_set]
  split
  · rename_i h; rw [h]
  · rfl

theorem mem_iter {p : PointValueStore} {s : Stat} : s ∈ p.iter.map (·.1) ↔ p.get s ≠ 0 := by
  simp [iter, Stat.mem_all]

end PointValueStore

/-! ## Change sets -/

/-- `ChangeSet<Stat>`: an ordered set of statistics. -/
abbrev StatChangeSet := Finset Stat

/-- Iteration over an ordered set of statistics. -/
def StatChangeSet.iter (c : StatChangeSet) : List Stat := Stat.all.filter fun s => decide (s ∈ c)

theorem StatChangeSet.mem_iter {c : StatChangeSet} {s : Stat} : s ∈ StatChangeSet.iter c ↔ s ∈ c := by
  simp [StatChangeSet.iter, Stat.mem_all]

/-- The statistics that one of the two stores holds as non-zero and that differ. -/
def diffStore (old new : PointValueStore) : StatChangeSet :=
  ((old.iter ++ new.iter).map (·.1)).filter (fun s => decide (old.get s ≠ new.get s)) |>.toFinset

/-- Skipping the zero values loses no difference. -/
theorem mem_diffStore {old new : PointValueStore} {s : Stat} : s ∈ diffStore old new ↔ old.get s ≠ new.get s := by
  unfold diffStore
  rw [List.mem_toFinset, List.mem_filter, List.map_append, List.mem_append, PointValueStore.mem_iter,
    PointValueStore.mem_iter, decide_eq_true_iff]
  constructor
  · exact And.right
  · intro h
    refine ⟨?_, h⟩
    by_contra hz
    push Not at hz
    exact h (hz.1.trans hz.2.symm)

@[simp] theorem diffStore_self (p : PointValueStore) : diffStore p p = ∅ :=
  Finset.eq_empty_of_forall_notMem fun _ hs => mem_diffStore.1 hs rfl

/-! ## Progression -/

def levelStepsPerLevel : Int := 4
def statPointStepsPerLevel : Int := levelStepsPerLevel - 1

/-- Level, experience inside the level and experience needed for the next one (both `u32`). -/
structure PlayerProgressionState where
  level : Int
  expInLevel : Nat
  nextExpInLevel : Nat
  deriving DecidableEq, Repr

namespace PlayerProgressionState

/-- The default value. -/
def zero : PlayerProgressionState := ⟨0, 0, 0⟩

def normalized (p : PlayerProgressionState) : PlayerProgressionState := { p with level := max p.level 0 }

/-- Completed quarters of the level. The product stays far below the bound of `u64`, so its saturation is the
product itself for `u32` values. -/
def levelStep (p : PlayerProgressionState) : Int :=
  let progression := p.normalized
  if progression.nextExpInLevel = 0 then 0
  else
    let exp := min progression.expInLevel progression.nextExpInLevel
    let levelSteps := levelStepsPerLevel.toNat
    ((min (exp * levelSteps / progression.nextExpInLevel) levelSteps : Nat) : Int)

theorem normalized_of_nonneg {p : PlayerProgressionState} (h : 0 ≤ p.level) : p.normalized = p := by
  simp [normalized, max_eq_left h]

@[simp] theorem levelStep_normalized (p : PlayerProgressionState) : p.normalized.levelStep = p.levelStep := rfl

theorem levelStep_mem (p : PlayerProgressionState) : 0 ≤ p.levelStep ∧ p.levelStep ≤ 4 := by
  unfold levelStep
  dsimp only
  split
  · omega
  · exact ⟨Int.natCast_nonneg _, Int.ofNat_le.2 (Nat.min_le_right _ _)⟩

end PlayerProgressionState

/-! ## Resource requests and results -/

structure ResourceApplication where
  stat : Stat
  delta : Int
  minValue : Int
  clampToCap : Bool
  deriving DecidableEq, Repr

def ResourceApplication.new (stat : Stat) (delta : Int) : ResourceApplication := ⟨stat, delta, 0, true⟩

def ResourceApplication.restore (stat : Stat) (amount : Int) : ResourceApplication := .new stat amount

structure ResourceApplicationResult where
  stat : Stat
  previous : Int
  current : Int
  appliedDelta : Int
  wasClamped : Bool
  deriving DecidableEq, Repr

structure QueuedRecovery where
  stat : Stat
  previousPending : Int
  currentPending : Int
  queuedAmount : Int
  deriving DecidableEq, Repr

/-! ## Contributions -/

structure CompiledModifier (Detail : Type) where
  stat : Stat
  amount : Int
  detail : Detail

/-- The modifiers one source contributes, in the order they were pushed. -/
structure CompiledStatContribution (Detail : Type) where
  modifiers : List (CompiledModifier Detail)

end Zohar.Stats
