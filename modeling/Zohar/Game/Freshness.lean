/-
One connection of a core from the claim of its lease on: select, loading and in game, with a heartbeat interval that
every phase starts anew. The row is refreshed by the ticks that find the client silent and by nothing else, so its age
is that of the last such tick: a client that is heard from before every tick lets its own lease run out.
-/
import Zohar.Game.Heartbeat

namespace Zohar.Game

open Zohar.Lib Zohar.Db Zohar.Net

/-! ## One connection -/

/-- The command line takes intervals of at least one second. -/
structure CoreConfig where
  connection : Connection
  username : String
  heartbeatIntervalSecs : Nat
  heartbeatIntervalSecs_pos : 0 < heartbeatIntervalSecs

namespace CoreConfig

/-- The interval in microseconds, the unit of the clock that the connection and the database share here. -/
def interval (cfg : CoreConfig) : Nat := cfg.heartbeatIntervalSecs * 1000000

theorem interval_pos (cfg : CoreConfig) : 0 < cfg.interval := Nat.mul_pos cfg.heartbeatIntervalSecs_pos (by decide)

/-- The stale threshold, in seconds. -/
def threshold (cfg : CoreConfig) : Int := 3 * cfg.heartbeatIntervalSecs

end CoreConfig

def instant (micros : Nat) : Instant := micros * 1000

inductive CorePhase where
  | select | loading | inGame
  deriving DecidableEq, Repr

/-- The loop of `run_core_connection`. -/
def CorePhase.next : CorePhase → CorePhase
  | .select => .loading
  | .loading => .inGame
  | .inGame => .select

structure CoreConn where
  now : Nat
  phase : CorePhase
  session : SessionTracker
  /-- The clock at the top of the phase's loop. -/
  loopTop : Nat
  nextTick : Nat
  db : GameDb
  ended : Bool
  /-- When a tick last found the client silent, or the claim: a record of the run that the code does not keep. -/
  lastSilent : Nat

namespace CoreConn

/-- The reading that a phase hands to the tracker: select and loading take it before they wait. -/
def seen (s : CoreConn) : Nat :=
  match s.phase with
  | .select => s.loopTop
  | .loading => s.loopTop
  | .inGame => s.now

def tickFinds (s : CoreConn) : Option SessionTick := s.session.onTick (instant s.seen)

/-- The first tick of an interval is awaited before the loop, so the next is one interval away. -/
def enter (cfg : CoreConfig) (s : CoreConn) (phase : CorePhase) : CoreConn :=
  { s with phase, loopTop := s.now, nextTick := s.now + cfg.interval }

/-- A connection whose login has just claimed the row; `rx` is the reading of its last packet. -/
def claimed (cfg : CoreConfig) (now rx : Nat) (db : GameDb) : CoreConn where
  now
  phase := .select
  session := .new (instant rx) (instant cfg.interval)
  loopTop := now
  nextTick := now + cfg.interval
  db
  ended := false
  lastSilent := now

end CoreConn

/-- `other` is a statement of anyone else, the persistence worker included. The events of the map leave tracker and row
alone; those that end the phase are a `close`. -/
inductive ConnEvent where
  | clock (now : Nat)
  | tick
  | packet (outcome : PacketOutcome)
  | close
  | other (op : DbOp)

/-- Time passes up to the next tick, which comes when it is due. Everything else takes no time. -/
def connStep (cfg : CoreConfig) (s : CoreConn) (event : ConnEvent) : Option CoreConn :=
  if s.ended then none
  else
    match event with
    | .clock now => if s.now ≤ now ∧ now ≤ s.nextTick then some { s with now } else none
    | .tick =>
      if s.now = s.nextTick then
        -- what is sent, in which the phases differ, leaves tracker and rows alone
        match sessionTick s.session cfg.username [] (instant s.seen) ⟨s.now, .done⟩ s.db with
        | (.ok _, db) =>
          some { s with
            db
            loopTop := s.now
            nextTick := s.now + cfg.interval
            lastSilent := if s.tickFinds = some .sendHeartbeat then s.now else s.lastSilent }
        | (.error _, _) => some { s with ended := true }
      else none
    | .packet outcome =>
      let s := { s with session := s.session.markRx (instant s.seen) }
      match outcome with
      | .handled => some { s with loopTop := s.now }
      | .next => some (s.enter cfg s.phase.next)
      | .disconnect => some { s with ended := true }
    | .close => some { s with ended := true }
    | .other op =>
      if op.isHeartbeat ∨ op.connection = some cfg.connection then none
      else some { s with db := op.exec cfg.threshold s.now s.db }

/-! ## The age of the lease -/

/-- A connection that is still there holds its row and the row is not stale; after a tick it is less than three
intervals old. -/
def FreshAfter (cfg : CoreConfig) (event : ConnEvent) (s : CoreConn) : Prop :=
  s.ended = false → ∃ r, s.db.sessions cfg.username = some r ∧ r.heldBy cfg.connection ∧
    r.staleAt s.now cfg.threshold = false ∧ (event = .tick → (s.now : Int) - r.lastHeartbeat < 3 * cfg.interval)

def StaysFresh (cfg : CoreConfig) (s : CoreConn) (event : ConnEvent) : Prop :=
  ∀ s', connStep cfg s event = some s' → FreshAfter cfg event s'

/-- No three intervals pass without a tick that finds the client silent. -/
def SilentInTime (cfg : CoreConfig) (s : CoreConn) : ConnEvent → Prop
  | .clock now => now ≤ s.lastSilent + 3 * cfg.interval
  | .tick => s.tickFinds = none → s.now < s.lastSilent + 3 * cfg.interval
  | _ => True

instance (cfg : CoreConfig) (s : CoreConn) : ∀ event, Decidable (SilentInTime cfg s event)
  | .clock _ => inferInstanceAs (Decidable (_ ≤ _))
  | .tick => inferInstanceAs (Decidable (_ → _))
  | .packet _ => .isTrue trivial
  | .close => .isTrue trivial
  | .other _ => .isTrue trivial

/-- The row is the connection's, as old as the last tick that found the client silent. -/
def OwnsRow (cfg : CoreConfig) (s : CoreConn) : Prop :=
  ∃ r, s.db.sessions cfg.username = some r ∧ r.heldBy cfg.connection ∧ r.lastHeartbeat = s.lastSilent

def Owned (cfg : CoreConfig) (s : CoreConn) : Prop :=
  s.ended = false → OwnsRow cfg s ∧ s.now ≤ s.lastSilent + 3 * cfg.interval

theorem staleAt_eq_false_iff {cfg : CoreConfig} {r : SessionRow} {lastSilent now : Nat}
    (hbeat : r.lastHeartbeat = lastSilent) :
    r.staleAt now cfg.threshold = false ↔ now ≤ lastSilent + 3 * cfg.interval := by
  unfold SessionRow.staleAt CoreConfig.threshold CoreConfig.interval
  rw [decide_eq_false_iff_not, hbeat]
  omega

/-- The clock of a connection whose row is as old as the last silence. -/
def InTime (cfg : CoreConfig) (event : ConnEvent) (s : CoreConn) : Prop :=
  s.now ≤ s.lastSilent + 3 * cfg.interval ∧ (event = .tick → s.now < s.lastSilent + 3 * cfg.interval)

theorem OwnsRow.freshAfter_iff {cfg : CoreConfig} {s : CoreConn} (h : OwnsRow cfg s) (halive : s.ended = false)
    (event : ConnEvent) :
    FreshAfter cfg event s ↔ InTime cfg event s := by
  obtain ⟨r, hr, hheld, hbeat⟩ := h
  constructor
  · intro h
    obtain ⟨r', hr', _, hfresh, hage⟩ := h halive
    rw [hr] at hr'
    cases hr'
    refine ⟨(staleAt_eq_false_iff hbeat).1 hfresh, fun ht => ?_⟩
    have := hage ht
    omega
  · rintro ⟨hnow, htick⟩ _
    refine ⟨r, hr, hheld, (staleAt_eq_false_iff hbeat).2 hnow, fun ht => ?_⟩
    have := htick ht
    omega

/-- Nobody else takes or ages a lease that is not stale. -/
theorem exec_other_fresh {threshold now : Int} {db : GameDb} {u : String} {k : Connection} {op : DbOp} {r : SessionRow}
    (hop : op.isHeartbeat = false) (hk : op.connection ≠ some k) (hr : db.sessions u = some r) (hheld : r.heldBy k)
    (hfresh : r.staleAt now threshold = false) :
    ∃ r', (op.exec threshold now db).sessions u = some r' ∧ r'.heldBy k ∧ r'.lastHeartbeat = r.lastHeartbeat := by
  have hstep := DbOp.exec_rowStep threshold now db u op
  rw [hr] at hstep
  rcases hstep.heldBy hheld (.inl hfresh) with ⟨r', hr', hheld'⟩ | hgives
  · obtain ⟨r₀, hr₀, _, hbeat⟩ := DbOp.heldBefore_of_other hop hk hr' hheld'
    rw [hr] at hr₀
    cases hr₀
    exact ⟨r', hr', hheld', hbeat.symm⟩
  · exact absurd (DbOp.givesUp_connection hgives) hk

/-- What a tick does: it refreshes an `ACTIVE` row, disconnects, or does nothing. -/
theorem sessionTick_done {session : SessionTracker} {username : String} {now : Instant} {micros : Nat} {db : GameDb}
    {r : SessionRow}
    (hr : db.sessions username = some r) (hactive : r.state = .active) :
    (session.onTick now = some .sendHeartbeat ∧ sessionTick session username [] now ⟨micros, .done⟩ db =
      (.ok [.control .requestHeartbeat], db.setSession username { r with lastHeartbeat := micros })) ∨
    (session.onTick now = some .timedOut ∧
      sessionTick session username [] now ⟨micros, .done⟩ db = (.error (disconnect "heartbeat timeout"), db)) ∨
    (session.onTick now = none ∧ sessionTick session username [] now ⟨micros, .done⟩ db = (.ok [], db)) := by
  unfold sessionTick
  cases session.onTick now with
  | none => exact .inr (.inr ⟨rfl, rfl⟩)
  | some t =>
    cases t with
    | timedOut => exact .inr (.inl ⟨rfl, rfl⟩)
    | sendHeartbeat => exact .inl ⟨rfl, by simp [DbCall.exec, updateSessionHeartbeat, hr, hactive]⟩

/-- What a step makes of a lease that is not stale: the connection ends, or it has its row, with the age of the last
silence, and the condition is about the clock after the step. -/
def StepOutcome (cfg : CoreConfig) (s : CoreConn) (event : ConnEvent) (s' : CoreConn) : Prop :=
  (s'.ended = true ∧ SilentInTime cfg s event) ∨
    (s'.ended = false ∧ OwnsRow cfg s' ∧ (SilentInTime cfg s event ↔ InTime cfg event s'))

theorem tick_outcome {cfg : CoreConfig} {s s' : CoreConn} (halive : s.ended = false) (hrow : OwnsRow cfg s)
    (hnow : s.now ≤ s.lastSilent + 3 * cfg.interval) (hstep : connStep cfg s .tick = some s') :
    StepOutcome cfg s .tick s' := by
  obtain ⟨r, hr, hheld, hbeat⟩ := hrow
  unfold connStep at hstep
  rw [if_neg (by simp [halive])] at hstep
  dsimp only at hstep
  split at hstep
  · rcases @sessionTick_done s.session cfg.username (instant s.seen) s.now s.db r hr hheld.1 with
      ⟨hfinds, htick⟩ | ⟨hfinds, htick⟩ | ⟨hfinds, htick⟩
    · have hfinds : s.tickFinds = some .sendHeartbeat := hfinds
      rw [htick] at hstep
      cases hstep
      refine .inr ⟨halive, ⟨_, GameDb.setSession_sessions_self _ _ _, hheld, by simp [hfinds]⟩, ?_⟩
      have hpos := cfg.interval_pos
      simp only [SilentInTime, InTime, hfinds, reduceCtorEq, false_implies, if_true, true_iff, forall_true_left]
      constructor <;> omega
    · have hfinds : s.tickFinds = some .timedOut := hfinds
      rw [htick] at hstep
      cases hstep
      exact .inl ⟨rfl, by simp [SilentInTime, hfinds]⟩
    · have hfinds : s.tickFinds = none := hfinds
      rw [htick] at hstep
      cases hstep
      refine .inr ⟨halive, ⟨r, hr, hheld, by simp [hfinds, hbeat]⟩, ?_⟩
      simp only [SilentInTime, InTime, hfinds, reduceCtorEq, if_false, forall_true_left]
      exact ⟨fun h => ⟨hnow, h⟩, fun h => h.2⟩
  · cases hstep

theorem connStep_outcome {cfg : CoreConfig} {s s' : CoreConn} {event : ConnEvent} (hown : Owned cfg s)
    (hstep : connStep cfg s event = some s') : StepOutcome cfg s event s' := by
  have halive : s.ended = false := by
    cases he : s.ended with
    | false => rfl
    | true => simp [connStep, he] at hstep
  obtain ⟨hrow, hnow⟩ := hown halive
  cases event with
  | tick => exact tick_outcome halive hrow hnow hstep
  | clock now =>
    unfold connStep at hstep
    rw [if_neg (by simp [halive])] at hstep
    dsimp only at hstep
    split at hstep
    · cases hstep
      exact .inr ⟨halive, hrow, by simp [SilentInTime, InTime]⟩
    · cases hstep
  | packet outcome =>
    unfold connStep at hstep
    rw [if_neg (by simp [halive])] at hstep
    cases outcome with
    | handled =>
      cases hstep
      exact .inr ⟨halive, hrow, by simp [SilentInTime, InTime, hnow]⟩
    | next =>
      cases hstep
      exact .inr ⟨halive, hrow, by simp [SilentInTime, InTime, CoreConn.enter, hnow]⟩
    | disconnect =>
      cases hstep
      exact .inl ⟨rfl, trivial⟩
  | close =>
    unfold connStep at hstep
    rw [if_neg (by simp [halive])] at hstep
    cases hstep
    exact .inl ⟨rfl, trivial⟩
  | other op =>
    unfold connStep at hstep
    rw [if_neg (by simp [halive])] at hstep
    dsimp only at hstep
    split at hstep
    · cases hstep
    · rename_i hop
      push Not at hop
      obtain ⟨r, hr, hheld, hbeat⟩ := hrow
      have hfresh : r.staleAt s.now cfg.threshold = false := (staleAt_eq_false_iff hbeat).2 hnow
      obtain ⟨r', hr', hheld', hbeat'⟩ := exec_other_fresh (by simpa using hop.1) hop.2 hr hheld hfresh
      cases hstep
      exact .inr ⟨halive, ⟨r', hr', hheld', hbeat'.trans hbeat⟩, by simp [SilentInTime, InTime, hnow]⟩

/-- From the claim on, for every pattern of packets, ticks, phase changes and statements of others: the connection keeps
its row, the row is never stale and less than three intervals old after every tick, exactly when no three intervals pass
without a tick that finds the client silent. -/
theorem lease_stays_fresh_iff {cfg : CoreConfig} {now rx : Nat} {db : GameDb} {r : SessionRow} {events : List ConnEvent}
    {s : CoreConn} (hr : db.sessions cfg.username = some r) (hheld : r.heldBy cfg.connection)
    (hbeat : r.lastHeartbeat = now) (hrun : run (connStep cfg) (.claimed cfg now rx db) events = some s) :
    Meets (connStep cfg) (StaysFresh cfg) (.claimed cfg now rx db) events ↔
      Meets (connStep cfg) (SilentInTime cfg) (.claimed cfg now rx db) events := by
  have hstart : Owned cfg (.claimed cfg now rx db) := by
    intro _
    exact ⟨⟨r, hr, hheld, hbeat⟩, Nat.le_add_right _ _⟩
  refine meets_congr (fun s event s' hown hstep => ?_) hstart hrun
  -- a step has one outcome
  have hone : StaysFresh cfg s event ↔ FreshAfter cfg event s' := by
    constructor
    · intro h
      exact h s' hstep
    · intro h t ht
      rw [hstep] at ht
      cases ht
      exact h
  rw [hone]
  rcases connStep_outcome hown hstep with ⟨hend, hcond⟩ | ⟨halive, hrow, hcond⟩
  · have hfresh : FreshAfter cfg event s' := by
      intro h
      rw [hend] at h
      cases h
    refine ⟨iff_of_true hfresh hcond, fun _ h => ?_⟩
    rw [hend] at h
    cases h
  · rw [hrow.freshAfter_iff halive event, hcond]
    exact ⟨Iff.rfl, fun h _ => ⟨hrow, h.1⟩⟩

/-! ## Two clients -/

def tenSecs : CoreConfig := ⟨connA, "admin", 10, by decide⟩

def leasedDb : GameDb :=
  ⟨fun _ => none, fun _ => none, fun _ => none, fun _ =>
    some ⟨some "core-1", some "a", 0, some 7, some 0, none, .active⟩⟩

def packetsAt (secs : List Nat) : List ConnEvent := secs.flatMap fun t => [.clock (t * 1000000), .packet .handled]

def tickDue (secs : Nat) : List ConnEvent := [.clock (secs * 1000000), .tick]

/-- A client that rests for more than an interval: its row is fresh when another core asks for it. -/
def restingEvents : List ConnEvent :=
  [.packet .next, .packet .next] ++ packetsAt [5] ++ tickDue 10 ++ tickDue 20 ++ packetsAt [21, 25] ++ tickDue 30 ++
    [.other (.session (.acquireSession "admin" connB))]

theorem lease_stays_fresh_iff_resting :
    ∃ s, run (connStep tenSecs) (.claimed tenSecs 0 0 leasedDb) restingEvents = some s ∧ s.ended = false ∧
      Meets (connStep tenSecs) (StaysFresh tenSecs) (.claimed tenSecs 0 0 leasedDb) restingEvents := by
  obtain ⟨s, hrun, halive⟩ : ∃ s, run (connStep tenSecs) (.claimed tenSecs 0 0 leasedDb) restingEvents = some s ∧
      s.ended = false := ⟨_, rfl, rfl⟩
  exact ⟨s, hrun, halive, (lease_stays_fresh_iff (r := ⟨some "core-1", some "a", 0, some 7, some 0, none, .active⟩) rfl
    ⟨rfl, rfl, rfl⟩ rfl hrun).2 (by decide)⟩

/-- A client that plays on, one second before every tick. -/
def playingEvents : List ConnEvent :=
  [.packet .next, .packet .next] ++ packetsAt [9] ++ tickDue 10 ++ packetsAt [19] ++ tickDue 20 ++
    packetsAt [29] ++ tickDue 30

/-- Its third tick leaves the row three intervals old, and a second later another core has it. -/
theorem playing_client_loses_lease :
    ∃ s s', run (connStep tenSecs) (.claimed tenSecs 0 0 leasedDb) playingEvents = some s ∧ s.ended = false ∧
      (s.db.sessions "admin").map (fun r => (s.now : Int) - r.lastHeartbeat) = some (3 * tenSecs.interval) ∧
      run (connStep tenSecs) s [.clock 31000000, .other (.session (.acquireSession "admin" connB))] = some s' ∧
      s'.ended = false ∧ HoldsSession s'.db "admin" connB :=
  ⟨_, _, rfl, rfl, rfl, rfl, rfl, _, rfl, rfl, rfl, rfl⟩

end Zohar.Game
