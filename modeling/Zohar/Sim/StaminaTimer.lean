/-
The stamina timer of the client. It follows `consuming` command by command, except where the tickers are reset: a pause
or a restart clears `consuming` and sends nothing, while the timer runs on and the next command starts it again.
-/
import Zohar.Lib.Run
import Zohar.Sim.StatTickers

namespace Zohar.Sim

open Zohar.Lib Zohar.Stats
open Zohar.Replication (PlayerCommand)

/-! ## The client -/

/-- What a chat command says of the timer: started, stopped, or nothing. -/
def startsTimer (message : List Char) : Option Bool :=
  if "StartStaminaConsume ".toList.isPrefixOf message then some true
  else if "StopStaminaConsume ".toList.isPrefixOf message then some false
  else none

def PlayerStaminaTimerCommand.starts : PlayerStaminaTimerCommand → Bool
  | .start _ => true
  | .stop => false

theorem startsTimer_staminaTimerCommand (fact : PlayerStaminaTimerChanged) :
    startsTimer (staminaTimerCommand fact) = some (PlayerStaminaTimerCommand.starts fact.command) := by
  unfold startsTimer staminaTimerCommand
  cases fact.command with
  | start consumePerSec => simp [PlayerStaminaTimerCommand.starts]
  | stop => simp [PlayerStaminaTimerCommand.starts]

namespace MapPlayer

/-- The stamina commands that the client has got, `true` for a start. -/
def timerCommands (p : MapPlayer) : List Bool := p.sent.filterMap startsTimer

/-- The timer does what the last command said; at first it is stopped. -/
def timerRuns (p : MapPlayer) : Bool := p.timerCommands.getLast?.getD false

/-- The commands are start, stop, start, .. and the timer runs while stamina is consumed. -/
structure TimerAgrees (p : MapPlayer) : Prop where
  alternate : (false :: p.timerCommands).IsChain (· ≠ ·)
  runs_eq : p.timerRuns = p.consuming

/-- The turns that put the tickers back to their first state. -/
def resetsTickers (p : MapPlayer) : PlayerTurn → Bool
  | .tick => !p.actor.life.isAlive
  | e => p.restartsOn e

/-! ## One turn -/

theorem timerAgrees_congr {p t : MapPlayer} (hsent : t.sent = p.sent) (hconsuming : t.consuming = p.consuming) :
    t.TimerAgrees ↔ p.TimerAgrees := by
  have hcommands : t.timerCommands = p.timerCommands := by rw [timerCommands, timerCommands, hsent]
  constructor
  · rintro ⟨halt, hruns⟩
    rw [hcommands] at halt
    exact ⟨halt, by rw [← hconsuming, ← hruns, timerRuns, timerRuns, hcommands]⟩
  · rintro ⟨halt, hruns⟩
    rw [← hcommands] at halt
    exact ⟨halt, by rw [hconsuming, ← hruns, timerRuns, timerRuns, hcommands]⟩

/-- A reset stops no timer that it should stop. -/
theorem timerAgrees_reset {p t : MapPlayer} (hsent : t.sent = p.sent) (hconsuming : t.consuming = false)
    (h : p.TimerAgrees) : t.TimerAgrees ↔ p.consuming = false := by
  constructor
  · intro ht
    have hruns : t.timerRuns = p.timerRuns := by rw [timerRuns, timerRuns, timerCommands, timerCommands, hsent]
    rw [← h.runs_eq, ← hruns, ht.runs_eq, hconsuming]
  · intro hp
    exact (timerAgrees_congr hsent (hconsuming.trans hp.symm)).2 h

/-- The command that follows a change of `consuming` keeps the commands alternating. -/
theorem TimerAgrees.append {p t : MapPlayer} (h : p.TimerAgrees) {c : Bool}
    (hcommands : t.timerCommands = p.timerCommands ++ [c]) (hconsuming : t.consuming = c) (hchange : c ≠ p.consuming) :
    t.TimerAgrees := by
  constructor
  · rw [hcommands, ← List.cons_append, List.isChain_append]
    refine ⟨h.alternate, by simp, ?_⟩
    intro x hx y hy
    have hlast : x = p.timerRuns := by
      rw [timerRuns, List.getLast?_cons] at *
      simpa using hx.symm
    have hy' : y = c := by simpa using hy.symm
    rw [hlast, hy', h.runs_eq]
    exact hchange.symm
  · rw [timerRuns, hcommands, hconsuming]
    simp

/-- The stamina ticker and the projection after it. -/
theorem StaminaTurn.timerAgrees {p t : MapPlayer} (hfacts : p.facts = []) (h : p.TimerAgrees)
    (hturn : StaminaTurn p t) :
    t.projectFrameFacts.TimerAgrees := by
  cases hturn with
  | notDue _ hstate hfacts' hsent _ =>
    refine (timerAgrees_congr ?_ (congrArg (·.consuming) hstate)).2 h
    show t.sent ++ t.facts.map staminaTimerCommand = p.sent
    rw [hsent, hfacts', hfacts]
    simp
  | due stamina maxStamina current activity elapsed effect heffect _ hfacts' hsent _ =>
    have hsent' : t.projectFrameFacts.timerCommands =
        p.timerCommands ++ effect.timer.toList.map PlayerStaminaTimerCommand.starts := by
      show (t.sent ++ t.facts.map staminaTimerCommand).filterMap startsTimer = _
      rw [hsent, hfacts', pushStaminaTimer, hfacts, List.filterMap_append]
      cases effect.timer with
      | none => simp [timerCommands]
      | some command => simp [timerCommands, startsTimer_staminaTimerCommand]
    have htimer := tickPlayerStamina_timer _ _ _ _ _ _ heffect
    by_cases hsame : t.tickers.stamina.state.consuming = p.tickers.stamina.state.consuming
    · rw [if_pos hsame] at htimer
      refine ⟨?_, ?_⟩
      · rw [hsent', htimer]
        simpa using h.alternate
      · have hruns : p.timerRuns = t.projectFrameFacts.consuming := h.runs_eq.trans hsame.symm
        rw [timerRuns] at hruns ⊢
        rw [hsent', htimer]
        simpa using hruns
    · rw [if_neg hsame] at htimer
      refine h.append (c := t.tickers.stamina.state.consuming) ?_ rfl hsame
      rw [hsent', htimer]
      cases t.tickers.stamina.state.consuming with
      | true => rfl
      | false => rfl

/-- A turn keeps the timer right exactly if it does not reset the tickers of a player that consumes stamina. -/
theorem step_timerAgrees {p t : MapPlayer} {e : PlayerTurn} (hfacts : p.facts = []) (hagrees : p.TimerAgrees)
    (h : p.step e = some t) : t.facts = [] ∧ (t.TimerAgrees ↔ (p.resetsTickers e = true → p.consuming = false)) := by
  cases step_turnEffect h with
  | tick u hu ht =>
    subst ht
    refine ⟨rfl, ?_⟩
    rcases processPlayerStatTickers_cases hu with ⟨hdown, rfl⟩ | ⟨halive, v, hsame, hturn⟩
    · have hreset : p.resetsTickers .tick = true := by simp [resetsTickers, hdown]
      have hsent : p.pausePlayerStatTickers.projectFrameFacts.sent = p.sent := by
        show p.sent ++ p.facts.map staminaTimerCommand = p.sent
        simp [hfacts]
      rw [timerAgrees_reset hsent rfl hagrees, hreset]
      simp
    · have hreset : p.resetsTickers .tick = false := by simp [resetsTickers, halive]
      have hagrees' : v.TimerAgrees :=
        (timerAgrees_congr hsame.sent (congrArg (·.state.consuming) hsame.stamina)).2 hagrees
      refine iff_of_true (hturn.timerAgrees (hsame.facts.trans hfacts) hagrees') ?_
      rw [hreset]
      exact nofun
  | restarted hrestart _ htickers hfacts' hsent _ =>
    have hconsuming : t.consuming = false := by
      rw [consuming, htickers]
      rfl
    have hreset : p.resetsTickers e = true := by
      cases e <;> first | exact hrestart | cases hrestart
    refine ⟨hfacts'.trans hfacts, ?_⟩
    rw [timerAgrees_reset hsent hconsuming hagrees, hreset]
    simp
  | animated around animation _ ht =>
    subst ht
    have hsent : (p.setPlayerMovementAnimation animation).sent = p.sent := rfl
    exact ⟨hfacts, iff_of_true ((timerAgrees_congr hsent rfl).2 hagrees) nofun⟩
  | kept htick hrestart _ _ htickers hfacts' hsent _ =>
    have hreset : p.resetsTickers e = false := by
      cases e <;> first | exact hrestart | exact absurd rfl htick
    have hagrees' : t.TimerAgrees := (timerAgrees_congr hsent (congrArg (·.stamina.state.consuming) htickers)).2 hagrees
    refine ⟨hfacts'.trans hfacts, iff_of_true hagrees' ?_⟩
    rw [hreset]
    exact nofun

end MapPlayer

/-! ## Runs -/

theorem enter_timerAgrees {now : Nat} {msg : LifeWorld.EnterMsg} {hydrated : HydratedPlayerStats}
    {initialPos : LocalPos} {start : MapPlayer} (h : MapPlayer.enter now msg hydrated initialPos = some start) :
    start.facts = [] ∧ start.TimerAgrees := by
  obtain ⟨tickers, htickers, rfl⟩ := Option.map_eq_some_iff.1 h
  refine ⟨rfl, by simp [MapPlayer.timerCommands], ?_⟩
  unfold PlayerStatTickerComp.initial at htickers
  obtain ⟨passiveHp, -, htickers⟩ := Option.bind_eq_some_iff.1 htickers
  obtain ⟨passiveSp, -, htickers⟩ := Option.bind_eq_some_iff.1 htickers
  obtain ⟨stamina, hstamina, htickers⟩ := Option.bind_eq_some_iff.1 htickers
  cases htickers
  obtain ⟨clock, -, rfl⟩ := Option.map_eq_some_iff.1 hstamina
  rfl

/-- In any run of a player that has entered the map, the commands alternate and the timer runs exactly while stamina is
consumed, throughout, if and only if no pause and no restart finds it consuming stamina. -/
theorem stamina_timer_iff {now : Nat} {msg : LifeWorld.EnterMsg} {hydrated : HydratedPlayerStats}
    {initialPos : LocalPos} {start last : MapPlayer} (henter : MapPlayer.enter now msg hydrated initialPos = some start)
    {turns : List PlayerTurn} (hrun : run MapPlayer.step start turns = some last) :
    Along MapPlayer.step MapPlayer.TimerAgrees start turns ↔
      Meets MapPlayer.step (fun p e => p.resetsTickers e = true → p.consuming = false) start turns := by
  obtain ⟨hfacts, hagrees⟩ := enter_timerAgrees henter
  exact along_iff_meets (I := fun p => p.facts = []) (fun p e t hf ha ht => MapPlayer.step_timerAgrees hf ha ht) hfacts
    hagrees hrun

/-- A fight of two seconds, and the rest after it. -/
def fightAndRest : List PlayerTurn := [.advance 1000, moveOn 1000, strike, .advance 3000, .tick, .advance 9000, .tick]

theorem stamina_timer_iff_fightAndRest :
    let := splitMix64Rolls
    ∃ start last, enterNovice none = some start ∧ run MapPlayer.step start fightAndRest = some last ∧
      last.timerCommands = [true, false] ∧
      (Along MapPlayer.step MapPlayer.TimerAgrees start fightAndRest ↔
        Meets MapPlayer.step (fun p e => p.resetsTickers e = true → p.consuming = false) start fightAndRest) := by
  intro rng
  have hcommands : ((enterNovice none).bind fun start => run MapPlayer.step start fightAndRest).map (·.timerCommands) =
      some [true, false] := by decide +kernel
  obtain ⟨last, hlast, hcommands⟩ := Option.map_eq_some_iff.1 hcommands
  obtain ⟨start, hstart, hrun⟩ := Option.bind_eq_some_iff.1 hlast
  obtain ⟨msg, hydrated, -, henter⟩ := enterNovice_eq_some hstart
  exact ⟨start, last, hstart, hrun, hcommands, stamina_timer_iff henter hrun⟩

/-- The novice is killed while it runs in a fight, restarts, and runs in a fight again. -/
def killedInFight : List PlayerTurn :=
  [.advance 1000, moveOn 1000, strike, .advance 2000, .tick, .hpDepleted, .tick, .advance 6000, .age, .advance 20000,
    .restart .here, moveOn 20000, strike, .advance 21000, .tick]

/-- The pause sends no stop, and the next fight starts the timer a second time. -/
theorem stamina_timer_startsTwice :
    let := splitMix64Rolls
    ∃ start last, enterNovice none = some start ∧ run MapPlayer.step start killedInFight = some last ∧
      last.timerCommands = [true, true] ∧ ¬ last.TimerAgrees := by
  intro rng
  have hcommands : ((enterNovice none).bind fun start => run MapPlayer.step start killedInFight).map (·.timerCommands) =
      some [true, true] := by decide +kernel
  obtain ⟨last, hlast, hcommands⟩ := Option.map_eq_some_iff.1 hcommands
  obtain ⟨start, hstart, hrun⟩ := Option.bind_eq_some_iff.1 hlast
  refine ⟨start, last, hstart, hrun, hcommands, fun h => ?_⟩
  have halternate := h.alternate
  rw [hcommands] at halternate
  simp at halternate

end Zohar.Sim
