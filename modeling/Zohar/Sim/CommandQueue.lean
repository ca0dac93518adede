/-
What is left in the command queue of a player after any number of commands: the newest moves and the newest attacks, up
to the limit of each, and everything else that was pushed, but for what repeats the command before it. From
zohar-sim/src/runtime/net/ingress.rs.
-/
import Mathlib.Data.List.DropRight
import Zohar.Sim.Ingress

namespace Zohar.Ingress

open Zohar.Lib Zohar.Replication

/-! ## Repetitions -/

/-- The command is a move or an animation that repeats the one before it. -/
def repeats (previous command : PlayerCommand) : Bool :=
  isMoveCommand command && playerMoveCommandsMatch previous command ||
    isAnimationCommand command && playerAnimationCommandsMatch previous command

/-- The commands that do not repeat the one pushed just before, `previous` being the one before the first. -/
def unrepeated : Option PlayerCommand → List PlayerCommand → List PlayerCommand
  | _, [] => []
  | previous, command :: commands =>
    if previous.any (repeats · command) then unrepeated (some command) commands
    else command :: unrepeated (some command) commands

def isTargetSelection : PlayerCommand → Bool
  | .selectTarget _ => true
  | _ => false

/-- What the queue keeps of the commands that were pushed. -/
structure KeepsNewest (pushed queue : List PlayerCommand) : Prop where
  sublist : queue.Sublist pushed
  moves_le : queue.countP isMoveCommand ≤ maxMoveIntentsPerTick
  attacks_le : queue.countP isAttackCommand ≤ maxAttackIntentsPerTick
  moves : queue.filter isMoveCommand = ((unrepeated none pushed).filter isMoveCommand).rtake maxMoveIntentsPerTick
  attacks : queue.filter isAttackCommand = ((unrepeated none pushed).filter isAttackCommand).rtake
    maxAttackIntentsPerTick
  targets : queue.filter isTargetSelection = pushed.filter isTargetSelection
  animations : queue.filter isAnimationCommand = (unrepeated none pushed).filter isAnimationCommand

/-! ## Equal floats -/

theorem f32Eq_iff {a b : UInt32} : f32Eq a b = true ↔ f32IsNan a = false ∧ f32IsNan b = false ∧
    (a = b ∨ (a &&& 0x7fffffff = 0 ∧ b &&& 0x7fffffff = 0)) := by
  have hor : (a ||| b) &&& 0x7fffffff = (a &&& 0x7fffffff) ||| (b &&& 0x7fffffff) := by
    apply UInt32.toBitVec_inj.1
    ext i hi
    simp only [UInt32.toBitVec_and, UInt32.toBitVec_or, BitVec.getElem_and, BitVec.getElem_or,
      Bool.and_or_distrib_right]
  simp [f32Eq, hor, and_assoc]

/-- Equality of floats is no equivalence, since a `NaN` equals nothing, but what equals the same float is equal. -/
theorem f32Eq_congr {a b c : UInt32} (h : f32Eq a b = true) : f32Eq a c = f32Eq b c := by
  rw [Bool.eq_iff_iff, f32Eq_iff, f32Eq_iff]
  obtain ⟨ha, hb, rfl | ⟨hza, hzb⟩⟩ := f32Eq_iff.1 h
  · rfl
  · -- both are zeros, and what one zero equals the other does
    grind

theorem posEq_congr {a b c : LocalPos} (h : posEq a b = true) : posEq a c = posEq b c := by
  obtain ⟨hx, hy⟩ := Bool.and_eq_true_iff.1 h
  unfold posEq
  rw [f32Eq_congr hx, f32Eq_congr hy]

/-- Two commands of which one repeats the other are repeated by the same commands. -/
theorem repeats_congr {a b c : PlayerCommand} (h : repeats a b = true) : repeats a c = repeats b c := by
  cases b with
  | move kind arg rot target ts =>
    cases a with
    | move kind' arg' rot' target' ts' =>
      simp only [repeats, isMoveCommand, isAnimationCommand, playerMoveCommandsMatch, Bool.true_and, Bool.false_and,
        Bool.or_false, Bool.and_eq_true, decide_eq_true_eq] at h
      obtain ⟨⟨⟨⟨rfl, rfl⟩, rfl⟩, htarget⟩, rfl⟩ := h
      cases c with
      | move => simp only [repeats, playerMoveCommandsMatch, posEq_congr htarget]; rfl
      | _ => rfl
    | _ => simp [repeats, isMoveCommand, isAnimationCommand, playerMoveCommandsMatch] at h
  | setMovementAnimation animation =>
    cases a with
    | setMovementAnimation animation' =>
      simp only [repeats, isMoveCommand, isAnimationCommand, playerAnimationCommandsMatch, Bool.false_and,
        Bool.false_or,
        Bool.true_and, decide_eq_true_eq] at h
      rw [h]
    | _ => simp [repeats, isMoveCommand, isAnimationCommand, playerAnimationCommandsMatch] at h
  | attack target attack => simp [repeats, isMoveCommand, isAnimationCommand] at h
  | selectTarget target => simp [repeats, isMoveCommand, isAnimationCommand] at h

theorem unrepeated_snoc (command : PlayerCommand) : ∀ (commands : List PlayerCommand) (previous : Option PlayerCommand),
    unrepeated previous (commands ++ [command]) = unrepeated previous commands ++
      if (commands.getLast?.or previous).any (repeats · command) then [] else [command]
  | [], previous => by
    cases h : previous.any (repeats · command) <;> simp [unrepeated, h]
  | first :: commands, previous => by
    rw [List.cons_append, unrepeated, unrepeated, unrepeated_snoc command commands (some first)]
    have hlast : (first :: commands).getLast?.or previous = commands.getLast?.or (some first) := by
      rw [List.getLast?_cons]
      cases commands.getLast? <;> rfl
    rw [hlast]
    split
    · rfl
    · rw [List.cons_append]

theorem unrepeated_sublist : ∀ (commands : List PlayerCommand) (previous : Option PlayerCommand),
    (unrepeated previous commands).Sublist commands
  | [], _ => .slnil
  | command :: commands, _ => by
    rw [unrepeated]
    split
    · exact (unrepeated_sublist commands _).cons command
    · exact (unrepeated_sublist commands _).cons_cons command

/-- The last command that repeats nothing is repeated by what repeats the last command. -/
theorem unrepeated_getLast? (commands : List PlayerCommand) : ∀ command : PlayerCommand,
    (unrepeated none commands).getLast?.any (repeats · command) = commands.getLast?.any (repeats · command) := by
  induction commands using List.reverseRecOn with
  | nil => exact fun _ => rfl
  | append_singleton commands last ih =>
    intro command
    rw [unrepeated_snoc, Option.or_none, List.getLast?_concat]
    split
    · -- the last command is a repetition, of what the last command that is none is, too
      rename_i hlast
      rw [List.append_nil]
      rw [← ih last, Option.any_eq_true] at hlast
      obtain ⟨kept, hkept, hrep⟩ := hlast
      rw [hkept]
      exact repeats_congr hrep
    · rw [List.getLast?_concat]

/-! ## Trimming -/

section Trim

variable {maxLen count : Nat} {bucket other : PlayerCommand → Bool} {queue : List PlayerCommand}

theorem retainLatest_sublist (maxLen : Nat) (bucket : PlayerCommand → Bool) :
    ∀ (count : Nat) (queue : List PlayerCommand),
    (retainLatest maxLen bucket count queue).Sublist queue
  | _, [] => .slnil
  | count, command :: queue => by
    rw [retainLatest]
    split
    · exact (retainLatest_sublist maxLen bucket count queue).cons_cons command
    · split
      · exact (retainLatest_sublist maxLen bucket (count - 1) queue).cons command
      · exact (retainLatest_sublist maxLen bucket count queue).cons_cons command

/-- Of the commands in the bucket, as many of the first are dropped as there are too many. -/
theorem filter_retainLatest (maxLen : Nat) (bucket : PlayerCommand → Bool) :
    ∀ (count : Nat) (queue : List PlayerCommand),
    (retainLatest maxLen bucket count queue).filter bucket = (queue.filter bucket).drop (count - maxLen)
  | count, [] => by simp [retainLatest]
  | count, command :: queue => by
    rw [retainLatest]
    cases hin : bucket command with
    | false =>
      rw [if_pos (by decide), List.filter_cons_of_neg (by simp [hin]), List.filter_cons_of_neg (by simp [hin])]
      exact filter_retainLatest maxLen bucket count queue
    | true =>
      rw [if_neg (by decide), List.filter_cons_of_pos hin]
      split
      · rename_i hmany
        rw [filter_retainLatest maxLen bucket (count - 1) queue, (by omega : count - maxLen = count - 1 - maxLen + 1),
          List.drop_succ_cons]
      · rename_i hfew
        rw [List.filter_cons_of_pos hin, filter_retainLatest maxLen bucket count queue,
          (by omega : count - maxLen = 0), List.drop_zero, List.drop_zero]

/-- The commands of another kind are let through. -/
theorem filter_retainLatest_other (hother : ∀ command, other command = true → bucket command = false) (maxLen : Nat) :
    ∀ (count : Nat) (queue : List PlayerCommand),
      (retainLatest maxLen bucket count queue).filter other = queue.filter other
  | _, [] => rfl
  | count, command :: queue => by
    rw [retainLatest]
    cases hin : bucket command with
    | false =>
      rw [if_pos (by decide), List.filter_cons, List.filter_cons, filter_retainLatest_other hother maxLen count queue]
    | true =>
      have hnot : ¬ other command = true := fun h => by simp [hother command h] at hin
      rw [if_neg (by decide), List.filter_cons_of_neg hnot]
      split
      · exact filter_retainLatest_other hother maxLen (count - 1) queue
      · rw [List.filter_cons_of_neg hnot]
        exact filter_retainLatest_other hother maxLen count queue

/-- The command that was pushed last is not among those that go. -/
theorem retainLatest_snoc (maxLen : Nat) (bucket : PlayerCommand → Bool) (command : PlayerCommand) :
    ∀ (count : Nat) (queue : List PlayerCommand), count ≤ queue.countP bucket + maxLen →
      ∃ kept, retainLatest maxLen bucket count (queue ++ [command]) = kept ++ [command]
  | count, [], h => by
    have hfew : ¬ maxLen < count := by simpa using h
    exact ⟨[], by simp [retainLatest, hfew]⟩
  | count, first :: queue, h => by
    rw [List.cons_append, retainLatest]
    rw [List.countP_cons] at h
    split
    · rename_i hout
      obtain ⟨kept, hkept⟩ := retainLatest_snoc maxLen bucket command count queue (by simp_all)
      exact ⟨first :: kept, by rw [hkept, List.cons_append]⟩
    · split
      · obtain ⟨kept, hkept⟩ := retainLatest_snoc maxLen bucket command (count - 1) queue (by split at h <;> omega)
        exact ⟨kept, hkept⟩
      · obtain ⟨kept, hkept⟩ := retainLatest_snoc maxLen bucket command count queue (by omega)
        exact ⟨first :: kept, by rw [hkept, List.cons_append]⟩

theorem trim_sublist : (trimPlayerCommands queue maxLen bucket).Sublist queue := by
  unfold trimPlayerCommands
  split
  · exact List.Sublist.refl queue
  · exact retainLatest_sublist maxLen bucket _ queue

theorem filter_trim : (trimPlayerCommands queue maxLen bucket).filter bucket = (queue.filter bucket).rtake maxLen := by
  unfold trimPlayerCommands List.rtake
  rw [List.countP_eq_length_filter]
  split
  · rename_i hfew
    rw [(by omega : (queue.filter bucket).length - maxLen = 0), List.drop_zero]
  · exact filter_retainLatest maxLen bucket _ queue

theorem filter_trim_other (hother : ∀ command, other command = true → bucket command = false) :
    (trimPlayerCommands queue maxLen bucket).filter other = queue.filter other := by
  unfold trimPlayerCommands
  split
  · rfl
  · exact filter_retainLatest_other hother maxLen _ queue

theorem trim_getLast? (command : PlayerCommand) (h : 0 < maxLen) :
    (trimPlayerCommands (queue ++ [command]) maxLen bucket).getLast? = some command := by
  unfold trimPlayerCommands
  split
  · exact List.getLast?_concat
  · have hcount : (queue ++ [command]).countP bucket ≤ queue.countP bucket + maxLen := by
      rw [List.countP_append]
      have hone : [command].countP bucket ≤ 1 := List.countP_le_length
      omega
    obtain ⟨kept, hkept⟩ := retainLatest_snoc maxLen bucket command _ queue hcount
    rw [hkept]
    exact List.getLast?_concat

/-- What is last of what is last is last. -/
theorem rtake_rtake_concat {α : Type} (xs : List α) (x : α) {n : Nat} (h : 0 < n) :
    (xs.rtake n ++ [x]).rtake n = (xs ++ [x]).rtake n := by
  obtain ⟨n, rfl⟩ := Nat.exists_eq_succ_of_ne_zero h.ne'
  rw [List.rtake_concat_succ, List.rtake_concat_succ]
  congr 1
  simp only [List.rtake_eq_reverse_take_reverse, List.reverse_reverse, List.take_take]
  congr 2
  omega

end Trim

/-! ## The queue -/

/-- What the queue is after the commands, told against those that repeat nothing. -/
structure Holds (pushed queue : List PlayerCommand) : Prop where
  sublist : queue.Sublist (unrepeated none pushed)
  last : queue.getLast? = (unrepeated none pushed).getLast?
  moves : queue.filter isMoveCommand = ((unrepeated none pushed).filter isMoveCommand).rtake maxMoveIntentsPerTick
  attacks : queue.filter isAttackCommand = ((unrepeated none pushed).filter isAttackCommand).rtake
    maxAttackIntentsPerTick
  targets : queue.filter isTargetSelection = (unrepeated none pushed).filter isTargetSelection
  animations : queue.filter isAnimationCommand = (unrepeated none pushed).filter isAnimationCommand

section Queue

variable {pushed queue : List PlayerCommand} {command : PlayerCommand}

/-- A command is suppressed exactly if it repeats the last of the queue. -/
theorem push_eq (queue : List PlayerCommand) (command : PlayerCommand) : pushPlayerCommand queue command =
    if queue.getLast?.any (repeats · command) then queue
    else match command with
      | .move .. => trimPlayerCommands (queue ++ [command]) maxMoveIntentsPerTick isMoveCommand
      | .attack .. => trimPlayerCommands (queue ++ [command]) maxAttackIntentsPerTick isAttackCommand
      | _ => queue ++ [command] := by
  unfold pushPlayerCommand
  cases command <;> cases queue.getLast? <;> simp [repeats, isMoveCommand, isAnimationCommand]

theorem rtake_concat_of_not {xs ys : List PlayerCommand} {bucket : PlayerCommand → Bool} {n : Nat}
    (h : xs.filter bucket = (ys.filter bucket).rtake n) (hout : bucket command = false) :
    (xs ++ [command]).filter bucket = ((ys ++ [command]).filter bucket).rtake n := by
  have hnil : [command].filter bucket = [] := List.filter_cons_of_neg (by simp [hout])
  rw [List.filter_append, List.filter_append, hnil, List.append_nil, List.append_nil, h]

theorem filter_concat {xs ys : List PlayerCommand} {bucket : PlayerCommand → Bool}
    (h : xs.filter bucket = ys.filter bucket) :
    (xs ++ [command]).filter bucket = (ys ++ [command]).filter bucket := by
  rw [List.filter_append, List.filter_append, h]

theorem filter_trim_concat {xs ys : List PlayerCommand} {bucket : PlayerCommand → Bool} {n : Nat} (hn : 0 < n)
    (h : xs.filter bucket = (ys.filter bucket).rtake n) (hin : bucket command = true) :
    (trimPlayerCommands (xs ++ [command]) n bucket).filter bucket = ((ys ++ [command]).filter bucket).rtake n := by
  have hone : [command].filter bucket = [command] := List.filter_cons_of_pos hin
  rw [filter_trim, List.filter_append, List.filter_append, hone, h, rtake_rtake_concat _ _ hn]

theorem holds_nil : Holds [] [] := ⟨.slnil, rfl, rfl, rfl, rfl, rfl⟩

/-- A command of a kind that has no limit is appended. -/
theorem Holds.appended (h : Holds pushed queue)
    (hnew : unrepeated none (pushed ++ [command]) = unrepeated none pushed ++ [command])
    (hmove : isMoveCommand command = false) (hattack : isAttackCommand command = false) :
    Holds (pushed ++ [command]) (queue ++ [command]) := by
  refine ⟨?_, ?_, ?_, ?_, ?_, ?_⟩ <;> rw [hnew]
  · exact h.sublist.append_right [command]
  · rw [List.getLast?_concat, List.getLast?_concat]
  · exact rtake_concat_of_not h.moves hmove
  · exact rtake_concat_of_not h.attacks hattack
  · exact filter_concat h.targets
  · exact filter_concat h.animations

/-- Each command pushed keeps what the queue holds. -/
theorem Holds.push (h : Holds pushed queue) (command : PlayerCommand) :
    Holds (pushed ++ [command]) (pushPlayerCommand queue command) := by
  rw [push_eq, h.last, unrepeated_getLast?]
  by_cases hrep : pushed.getLast?.any (repeats · command) = true
  · -- the command is suppressed
    have hsame : unrepeated none (pushed ++ [command]) = unrepeated none pushed := by
      rw [unrepeated_snoc, Option.or_none, if_pos hrep, List.append_nil]
    rw [if_pos hrep]
    refine ⟨?_, ?_, ?_, ?_, ?_, ?_⟩ <;> rw [hsame]
    exacts [h.sublist, h.last, h.moves, h.attacks, h.targets, h.animations]
  · have hnew : unrepeated none (pushed ++ [command]) = unrepeated none pushed ++ [command] := by
      rw [unrepeated_snoc, Option.or_none, if_neg hrep]
    rw [if_neg hrep]
    -- the trimming of one kind leaves the other kinds alone
    have hsub : (queue ++ [command]).Sublist (unrepeated none pushed ++ [command]) := h.sublist.append_right [command]
    cases command with
    | move kind arg rot target ts =>
      refine ⟨?_, ?_, ?_, ?_, ?_, ?_⟩ <;> rw [hnew]
      · exact trim_sublist.trans hsub
      · rw [trim_getLast? _ (by decide), List.getLast?_concat]
      · exact filter_trim_concat (by decide) h.moves rfl
      · rw [filter_trim_other (by intro c; cases c <;> simp [isAttackCommand, isMoveCommand])]
        exact rtake_concat_of_not h.attacks rfl
      · rw [filter_trim_other (by intro c; cases c <;> simp [isTargetSelection, isMoveCommand])]
        exact filter_concat h.targets
      · rw [filter_trim_other (by intro c; cases c <;> simp [isAnimationCommand, isMoveCommand])]
        exact filter_concat h.animations
    | attack target attack =>
      refine ⟨?_, ?_, ?_, ?_, ?_, ?_⟩ <;> rw [hnew]
      · exact trim_sublist.trans hsub
      · rw [trim_getLast? _ (by decide), List.getLast?_concat]
      · rw [filter_trim_other (by intro c; cases c <;> simp [isAttackCommand, isMoveCommand])]
        exact rtake_concat_of_not h.moves rfl
      · exact filter_trim_concat (by decide) h.attacks rfl
      · rw [filter_trim_other (by intro c; cases c <;> simp [isTargetSelection, isAttackCommand])]
        exact filter_concat h.targets
      · rw [filter_trim_other (by intro c; cases c <;> simp [isAnimationCommand, isAttackCommand])]
        exact filter_concat h.animations
    | setMovementAnimation animation => exact h.appended hnew rfl rfl
    | selectTarget target => exact h.appended hnew rfl rfl

theorem holds_pushed (pushed : List PlayerCommand) : Holds pushed (pushed.foldl pushPlayerCommand []) := by
  induction pushed using List.reverseRecOn with
  | nil => exact holds_nil
  | append_singleton pushed command ih =>
    rw [List.foldl_append, List.foldl_cons, List.foldl_nil]
    exact ih.push command

/-- No selection of a target is ever a repetition. -/
theorem filter_unrepeated_target : ∀ (commands : List PlayerCommand) (previous : Option PlayerCommand),
    (unrepeated previous commands).filter isTargetSelection = commands.filter isTargetSelection
  | [], _ => rfl
  | command :: commands, previous => by
    have ih := filter_unrepeated_target commands (some command)
    rw [unrepeated]
    split
    · rename_i hrep
      obtain ⟨p, -, hrep⟩ := (Option.any_eq_true _ _).1 hrep
      have hnot : ¬ isTargetSelection command = true := by
        intro hsel
        cases command <;> simp [repeats, isMoveCommand, isAnimationCommand, isTargetSelection] at hrep hsel
      rw [List.filter_cons_of_neg hnot, ih]
    · rw [List.filter_cons, List.filter_cons, ih]

theorem countP_le_of_rtake {bucket : PlayerCommand → Bool} {n : Nat} {xs : List PlayerCommand}
    (h : queue.filter bucket = xs.rtake n) : queue.countP bucket ≤ n := by
  rw [List.countP_eq_length_filter, h, List.rtake, List.length_drop]
  omega

/-- The queue of a player keeps the newest of the commands that are pushed on it. -/
theorem command_queue_keeps_newest (pushed : List PlayerCommand) :
    KeepsNewest pushed (pushed.foldl pushPlayerCommand []) := by
  have h := holds_pushed pushed
  exact {
    sublist := h.sublist.trans (unrepeated_sublist pushed none)
    moves_le := countP_le_of_rtake h.moves
    attacks_le := countP_le_of_rtake h.attacks
    moves := h.moves
    attacks := h.attacks
    targets := h.targets.trans (filter_unrepeated_target pushed none)
    animations := h.animations }

end Queue

end Zohar.Ingress
