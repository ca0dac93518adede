/-
The gait of an exhausted player. The tick that spends the last of its stamina makes it walk until the tick that restores
it; but a command of its client takes effect at once, whatever the stamina, and a restart begins with a run.
-/
import Zohar.Lib.Run
import Zohar.Sim.StatTickers

namespace Zohar.Sim

open Zohar.Lib Zohar.Stats
open Zohar.Replication (MovementAnimation Mover Surroundings samplePlayerMotionStateAt)

namespace MapPlayer

/-- What a move to the target takes at walking speed. -/
def walkingMs (around : Surroundings) (m : Mover) (target : LocalPos) (ts : Nat) : Nat :=
  let oldPos := samplePlayerMotionStateAt around.geometry m.pos m.motion ts
  around.geometry.calculateMoveDurationMs .walk oldPos
    (around.geometry.sanitizePlayerTargetToMap (around.geometry.sanitizePacketTarget oldPos target))

/-- While it is exhausted the player walks, and so whatever move it makes takes the time of a walk. -/
structure WalksExhausted (p : MapPlayer) : Prop where
  animation : p.exhausted = true → p.mover.animation = .walk
  timed : p.exhausted = true → ∀ (around : Surroundings) (target : LocalPos) (ts : Nat),
    (p.mover.planMove around .move target ts).2.1 = walkingMs around p.mover target ts

theorem walksExhausted_iff {p : MapPlayer} : p.WalksExhausted ↔ (p.exhausted = true → p.mover.animation = .walk) := by
  constructor
  · exact fun h => h.animation
  · intro h
    refine ⟨h, fun he around target ts => ?_⟩
    rw [walkingMs, ← h he]
    rfl

/-- The turns that let a player run: its client asks for it, or it restarts. -/
def takesUpRunning (p : MapPlayer) : PlayerTurn → Bool
  | .command _ (.setMovementAnimation .run) => p.actor.life.isAlive
  | e => p.restartsOn e

/-! ## One turn -/

/-- What the history takes for exhaustion: a tick that spends all the stamina there is leaves none. -/
theorem readPacket_stamina_of_spendAll {p t : MapPlayer} {current : Option Int}
    (h : p.applyPlayerResourceApplication (some (.spend .stamina (p.stats.readPacket .stamina))) = some (current, t)) :
    t.stats.readPacket .stamina = 0 := by
  obtain ⟨⟨result, stats⟩, hrun, hr⟩ := Option.map_eq_some_iff.1 h
  cases hr
  obtain ⟨st, hst, rfl⟩ := withApi_eq_some hrun
  rw [GameStatsApi.applyResource_run] at hst
  obtain ⟨next, hnext, hst⟩ := Option.bind_eq_some_iff.1 hst
  have hcurrent : currentResourceValue p.stats.state .stamina = .ok (p.stats.readPacket .stamina) := rfl
  obtain ⟨u, hu⟩ := exists_setResourceStat hcurrent next
  obtain ⟨v, hv, hst⟩ := Option.map_eq_some_iff.1 hst
  cases hst
  have hset : p.stats.state.setResourceStat .stamina next = .ok st := by
    rw [hu]
    have hv' : (p.stats.state.setResourceStat .stamina next).toOption = some st := hv
    rw [hu] at hv'
    exact congrArg Except.ok (Option.some.inj hv')
  have hspent : p.stats.state.resources.stamina + -p.stats.readPacket .stamina = 0 := add_neg_cancel _
  have hzero : next = 0 := by
    obtain ⟨-, hnext⟩ := clamp?_eq_some.1 hnext
    rw [← hnext]
    show max 0 (min (satI32 (p.stats.state.resources.stamina + -p.stats.readPacket .stamina)) _) = 0
    rw [hspent]
    exact max_eq_left ((min_le_left _ _).trans (by decide))
  obtain ⟨hvalue, -⟩ := currentResourceValue_of_setResourceStat hset
  rw [hzero] at hvalue
  exact Except.ok.inj hvalue

section
variable {p : MapPlayer} {stamina maxStamina : Int}

theorem exhausted_noteTick_spend {amount : Int} (hne : amount ≠ stamina)
    (h : (p.noteTick stamina maxStamina (some (.spend .stamina amount))).exhausted = true) : p.exhausted = true := by
  unfold noteTick at h
  dsimp only at h
  split at h
  · rename_i hall
    exact absurd (neg_injective (congrArg (·.delta) (Option.some.inj hall.2))) hne
  · split at h
    · cases h
    · exact h

theorem exhausted_noteTick_restore (hlt : stamina < maxStamina) :
    (p.noteTick stamina maxStamina (some (.restore .stamina maxStamina))).exhausted = false := by
  unfold noteTick
  dsimp only
  split
  · rename_i hall
    have hdelta : maxStamina = -stamina := congrArg (·.delta) (Option.some.inj hall.2)
    omega
  · exact if_pos rfl

theorem exhausted_noteTick_none : (p.noteTick stamina maxStamina none).exhausted = p.exhausted := by simp [noteTick]

end

/-- The tick that exhausts a player makes it walk, and the one that restores it ends that. -/
theorem StaminaTurn.walksExhausted {p t : MapPlayer} (h : p.WalksExhausted) (hturn : StaminaTurn p t) :
    t.WalksExhausted := by
  rw [walksExhausted_iff] at h ⊢
  cases hturn with
  | notDue hmover _ _ _ hexhausted =>
    rw [hmover, hexhausted]
    exact h
  | due stamina maxStamina current activity elapsed effect heffect hmover _ _ hexhausted =>
    have houtcome := tickPlayerStamina_outcome p.tickers.stamina.state stamina maxStamina activity
      p.mover.animation elapsed
    rw [heffect] at houtcome
    rw [hmover, hexhausted]
    cases houtcome with
    | spend amount hpos h0 h1 happlication hoverride =>
      rw [happlication, hoverride]
      by_cases hall : amount = stamina
      · rw [if_pos hall]
        exact fun _ => rfl
      · rw [if_neg hall]
        exact fun he => h (exhausted_noteTick_spend hall he)
    | restore hlt happlication hoverride =>
      rw [happlication, exhausted_noteTick_restore hlt]
      exact nofun
    | rest happlication hoverride =>
      rw [happlication, hoverride, exhausted_noteTick_none]
      exact h

/-- A turn keeps an exhausted player walking exactly if it is not one that lets it run. -/
theorem step_walksExhausted {p t : MapPlayer} {e : PlayerTurn} (hwalks : p.WalksExhausted) (h : p.step e = some t) :
    t.WalksExhausted ↔ (p.exhausted = true → p.takesUpRunning e = false) := by
  cases step_turnEffect h with
  | tick u hu ht =>
    subst ht
    refine iff_of_true ?_ fun _ => rfl
    rw [walksExhausted_iff]
    show u.exhausted = true → u.mover.animation = .walk
    rcases processPlayerStatTickers_cases hu with ⟨-, rfl⟩ | ⟨-, v, hsame, hturn⟩
    · exact hwalks.animation
    · have hwalks' : v.WalksExhausted := by
        rw [walksExhausted_iff, hsame.mover, hsame.exhausted]
        exact hwalks.animation
      exact (hturn.walksExhausted hwalks').animation
  | restarted hrestart hanimation _ _ _ hexhausted =>
    have hrun : p.takesUpRunning e = true := by
      cases e <;> first | exact hrestart | cases hrestart
    rw [walksExhausted_iff, hanimation, hexhausted, hrun]
    simp
  | animated around animation halive ht =>
    subst ht
    rw [walksExhausted_iff]
    show (p.exhausted = true → animation = .walk) ↔ _
    cases animation with
    | run => simp [takesUpRunning, halive]
    | walk => simp [takesUpRunning, restartsOn]
  | kept _ hrestart hcommand hanimation _ _ _ hexhausted =>
    have hrun : p.takesUpRunning e = false := by
      unfold takesUpRunning
      split
      · exact hcommand _ _ rfl
      · exact hrestart
    refine iff_of_true ?_ fun _ => hrun
    rw [walksExhausted_iff, hanimation]
    exact fun he => hwalks.animation (hexhausted he)

end MapPlayer

/-! ## Runs -/

/-- In any run of a player that has entered the map, it walks throughout the times of its exhaustion, and its moves take
the time of a walk, if and only if in none of them its client asks for a run or it restarts. -/
theorem exhausted_walks_iff {now : Nat} {msg : LifeWorld.EnterMsg} {hydrated : HydratedPlayerStats}
    {initialPos : LocalPos} {start last : MapPlayer} (henter : MapPlayer.enter now msg hydrated initialPos = some start)
    {turns : List PlayerTurn} (hrun : run MapPlayer.step start turns = some last) :
    Along MapPlayer.step MapPlayer.WalksExhausted start turns ↔
      Meets MapPlayer.step (fun p e => p.exhausted = true → p.takesUpRunning e = false) start turns := by
  have hfresh : start.WalksExhausted := by
    obtain ⟨tickers, -, rfl⟩ := Option.map_eq_some_iff.1 henter
    exact MapPlayer.walksExhausted_iff.2 nofun
  exact along_iff_meets (I := fun _ => True)
    (fun p e t _ hp ht => ⟨trivial, MapPlayer.step_walksExhausted hp ht⟩) trivial
    hfresh hrun

def askFor (animation : MovementAnimation) : PlayerTurn := .command trainingGround (.setMovementAnimation animation)

/-- The ten that are left of the stamina are used up in a fight. -/
def exhaustion : List PlayerTurn := [.advance 1000, moveOn 1000, strike, .advance 2000, .tick]

/-- The player walks on, rests, is restored by the last tick, and only then asks for a run. -/
def exhaustedAndRestored : List PlayerTurn :=
  exhaustion ++ [moveOn 2000, askFor .walk, .advance 9000, .tick, .advance 21000, .tick, askFor .run]

theorem exhausted_walks_iff_restored :
    let := splitMix64Rolls
    ∃ start tired last, enterNovice (some 10) = some start ∧ run MapPlayer.step start exhaustion = some tired ∧
      tired.exhausted = true ∧ run MapPlayer.step start exhaustedAndRestored = some last ∧ last.exhausted = false ∧
      (Along MapPlayer.step MapPlayer.WalksExhausted start exhaustedAndRestored ↔
        Meets MapPlayer.step (fun p e => p.exhausted = true → p.takesUpRunning e = false) start
          exhaustedAndRestored) := by
  intro rng
  have htired : ((enterNovice (some 10)).bind fun start => (run MapPlayer.step start exhaustion).bind fun tired =>
      (run MapPlayer.step start exhaustedAndRestored).map fun last => (tired.exhausted, last.exhausted)) =
        some (true, false) := by decide +kernel
  obtain ⟨start, hstart, htired⟩ := Option.bind_eq_some_iff.1 htired
  obtain ⟨tired, hexhaustion, htired⟩ := Option.bind_eq_some_iff.1 htired
  obtain ⟨last, hlast, htired⟩ := Option.map_eq_some_iff.1 htired
  obtain ⟨msg, hydrated, -, henter⟩ := enterNovice_eq_some hstart
  obtain ⟨hyes, hno⟩ := Prod.mk.inj htired
  exact ⟨start, tired, last, hstart, hexhaustion, hyes, hlast, hno, exhausted_walks_iff henter hlast⟩

/-- The client of an exhausted player asks for a run, and gets it: it is exhausted still, and moves in five seconds
where a walk takes fifteen. -/
theorem exhausted_walks_runs :
    let := splitMix64Rolls
    ∃ start last, enterNovice (some 10) = some start ∧
      run MapPlayer.step start (exhaustion ++ [askFor .run]) = some last ∧
      last.exhausted = true ∧ last.mover.animation = .run ∧
      (last.mover.planMove trainingGround .move ⟨0, 0⟩ 2000).2.1 = 5000 ∧
      MapPlayer.walkingMs trainingGround last.mover ⟨0, 0⟩ 2000 = 15000 ∧ ¬ last.WalksExhausted := by
  intro rng
  have hruns : ((enterNovice (some 10)).bind fun start => run MapPlayer.step start (exhaustion ++ [askFor .run])).map
      (fun last => (last.exhausted, last.mover.animation, (last.mover.planMove trainingGround .move ⟨0, 0⟩ 2000).2.1,
        MapPlayer.walkingMs trainingGround last.mover ⟨0, 0⟩ 2000)) =
        some (true, .run, 5000, 15000) := by decide +kernel
  obtain ⟨last, hlast, hruns⟩ := Option.map_eq_some_iff.1 hruns
  obtain ⟨start, hstart, hrun⟩ := Option.bind_eq_some_iff.1 hlast
  simp only [Prod.mk.injEq] at hruns
  obtain ⟨hexhausted, hanimation, hmove, hwalk⟩ := hruns
  refine ⟨start, last, hstart, hrun, hexhausted, hanimation, hmove, hwalk, fun h => ?_⟩
  have hwalks := h.animation hexhausted
  rw [hanimation] at hwalks
  cases hwalks

end Zohar.Sim
