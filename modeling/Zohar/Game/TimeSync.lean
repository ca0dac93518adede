/-
The clock by which the phase loops judge a time sync: `drive_login`, `drive_select`, `drive_loading` and `drive_ingame`
of zohar-gamesrv's handlers. All four answer through `handle_session_control`. The loops of login, select and loading
read the clock before they wait and hand that reading to the handler; the one in game reads it when the packet is there.
-/
import Zohar.Game.Session
import Zohar.Game.Drain

namespace Zohar.Game

open Zohar.Lib Zohar.Net

/-! ## The loops -/

/-- What the `select!` of a loop wakes up for. -/
inductive LoopBranch where
  | tick
  | control (packet : ControlC2s)
  /-- A packet of the phase's own; none of them touches the handshake. -/
  | specific
  deriving DecidableEq, Repr

/-- One turn of a loop: the wait in the `select!`, and what the handler and the sends take after it. -/
structure LoopTurn where
  idle : Duration
  branch : LoopBranch
  busy : Duration
  deriving DecidableEq, Repr

/-- `clock` is the time at the top of the loop. -/
structure LoopState where
  clock : Instant
  session : SessionTracker
  handshake : HandshakeState
  deriving DecidableEq, Repr

/-- The `now` of the handlers. -/
def PhaseLoop.handlerNow (phase : PhaseLoop) (top woken : Instant) : Instant :=
  match phase with
  | .login | .select | .loading => top
  | .inGame => woken

/-- One turn of the loop: the control packets it sends, or the error that ends the phase. Of the ticks only the request
for a heartbeat is kept. -/
def LoopState.turn (phase : PhaseLoop) (s : LoopState) (t : LoopTurn) :
    Except PhaseError (List ControlS2c) × LoopState :=
  let now := phase.handlerNow s.clock (s.clock + t.idle)
  let clock := s.clock + t.idle + t.busy
  match t.branch with
  | .tick =>
    match s.session.onTick now with
    | some .sendHeartbeat => (.ok [.requestHeartbeat], { s with clock })
    | some .timedOut => (.error (disconnect "heartbeat timeout"), { s with clock })
    | none => (.ok [], { s with clock })
  | .control packet =>
    match handleSessionControl packet now s.handshake with
    | (.ok (.handled send), handshake) => (.ok send, ⟨clock, s.session.markRx now, handshake⟩)
    | (.ok (.reject reason), handshake) => (.error (disconnect reason), ⟨clock, s.session.markRx now, handshake⟩)
    | (.error e, handshake) => (.error e, ⟨clock, s.session.markRx now, handshake⟩)
  | .specific => (.ok [], { s with clock, session := s.session.markRx now })

/-! ## Runs -/

/-- A turn as it happened, with the states around it. -/
structure LoopExchange where
  before : LoopState
  turn : LoopTurn
  answer : Except PhaseError (List ControlS2c)
  after : LoopState

/-- The moment at which the packet of the turn is there. -/
def LoopExchange.arrival (e : LoopExchange) : Instant := e.before.clock + e.turn.idle

def LoopState.exchange (phase : PhaseLoop) (s : LoopState) (t : LoopTurn) : LoopExchange :=
  ⟨s, t, (s.turn phase t).1, (s.turn phase t).2⟩

/-- Every turn of a run of the loop, in order; an error ends it. -/
def LoopState.exchanges (phase : PhaseLoop) (s : LoopState) : List LoopTurn → List LoopExchange
  | [] => []
  | t :: ts =>
    s.exchange phase t ::
      match (s.exchange phase t).answer with
      | .ok _ => exchanges phase (s.exchange phase t).after ts
      | .error _ => []

/-! ## Judging a sync at its arrival -/

/-- The time and delta of the packet lie 0 to 50 ms behind the uptime. -/
def InStep (s : HandshakeState) (data : HandshakeSyncData) (now : Instant) : Prop :=
  0 ≤ ((s.uptimeAt now).asMillis : Int) - (data.time.raw.toNat + data.delta.value.toInt) ∧
    ((s.uptimeAt now).asMillis : Int) - (data.time.raw.toNat + data.delta.value.toInt) ≤ 50

/-- The packet carries the handshake id of its connection and a delta that the decoder lets through, and the server has
not been up for `2^32` ms. -/
structure LoopExchange.Admitted (e : LoopExchange) (data : HandshakeSyncData) : Prop where
  packet : e.turn.branch = .control (.requestTimeSync data)
  id : data.handshake = e.before.handshake.id
  delta : 0 ≤ data.delta.value
  uptime : (e.before.handshake.uptimeAt e.arrival).asMillis < 4294967296

/-- The sync is judged at its arrival. -/
structure LoopExchange.Judged (e : LoopExchange) (data : HandshakeSyncData) : Prop where
  acked : InStep e.before.handshake data e.arrival → e.answer = .ok [.timeSyncResponse]
  resynced : ¬ InStep e.before.handshake data e.arrival → ∀ send sync, e.answer = .ok send →
    .requestHandshake sync ∈ send → sync.time = .fromDuration (e.before.handshake.uptimeAt e.arrival)

/-- At the clock reading that the handler is given the sync is in step, or the uptime counts the milliseconds it counts
at the arrival. In game the two readings are one. -/
def LoopExchange.Timely (phase : PhaseLoop) (e : LoopExchange) (data : HandshakeSyncData) : Prop :=
  phase = .inGame ∨ InStep e.before.handshake data e.before.clock ∨
    (e.before.handshake.uptimeAt e.before.clock).asMillis = (e.before.handshake.uptimeAt e.arrival).asMillis

/-! ## The code's test -/

theorem asMillis_asDuration_of_nonneg {delta : WireDeltaMillis} (h : 0 ≤ delta.value) :
    (delta.asDuration.asMillis : Int) = delta.value.toInt := by
  have h0 : 0 ≤ delta.value.toInt := Int32.le_iff_toInt_le.1 h
  have h64 : delta.value.toInt64.toInt = delta.value.toInt := Int32.toInt_toInt64 _
  have hnonneg : 0 ≤ delta.value.toInt64 := by
    rw [Int64.le_iff_toInt_le, h64]
    exact h0
  have hnat : delta.value.toInt64.toUInt64.toNat = delta.value.toInt64.toInt.toNat := Int64.toNat_toUInt64_of_le hnonneg
  unfold WireDeltaMillis.asDuration
  rw [asMillis_fromMillis, hnat, h64]
  omega

theorem asMillis_add_fromMillis (d : Duration) (millis : Nat) :
    Duration.asMillis (d + .fromMillis millis) = Duration.asMillis d + millis := by
  unfold Duration.asMillis Duration.fromMillis
  omega

/-- On what a client can send while the uptime fits the wire, the test of the code is the difference of the numbers. -/
theorem inTolerance_iff_inStep {s : HandshakeState} {data : HandshakeSyncData} {now : Instant}
    (hd : 0 ≤ data.delta.value) (hu : (s.uptimeAt now).asMillis < 4294967296) :
    s.InTolerance data now ↔ InStep s data now := by
  have htime : data.time.asDuration.asMillis = data.time.raw.toNat := asMillis_fromMillis _
  have hdelta := asMillis_asDuration_of_nonneg hd
  have hsum : (Duration.asMillis (data.time.asDuration + data.delta.asDuration) : Int) =
      data.time.raw.toNat + data.delta.value.toInt := by
    rw [← hdelta, ← htime]
    unfold WireDeltaMillis.asDuration
    rw [asMillis_add_fromMillis, asMillis_fromMillis]
    push_cast
    rfl
  have hlt : data.delta.value.toInt < 2147483648 := Int32.toInt_lt _
  have hraw : data.time.raw.toNat < 4294967296 := UInt32.toNat_lt _
  -- neither side reaches the cap of `millis_i64`
  have hbias : s.biasMs data now = ((s.uptimeAt now).asMillis : Int) -
      (data.time.raw.toNat + data.delta.value.toInt) := by
    unfold HandshakeState.biasMs
    rw [millisI64_eq, millisI64_eq, hsum]
    unfold i64Max
    omega
  unfold HandshakeState.InTolerance InStep handshakeBiasToleranceMs
  rw [hbias]

/-! ## What one turn answers -/

theorem handleSessionControl_handshaking (packet : ControlC2s) (now : Instant) (s : HandshakeState)
    (hs : s.handshaking = false) : (handleSessionControl packet now s).2.handshaking = false := by
  unfold handleSessionControl
  cases packet with
  | heartbeatResponse => exact hs
  | handshakeResponse data => exact hs
  | requestTimeSync data =>
    have hkept := (s.handle_handles data now).kept.flag hs
    dsimp only
    split <;> rename_i heq <;> rw [heq] at hkept <;> exact hkept

/-- The flag of a completed handshake stays down through a turn. -/
theorem LoopState.turn_handshaking (phase : PhaseLoop) (s : LoopState) (t : LoopTurn)
    (hs : s.handshake.handshaking = false) :
    (s.turn phase t).2.handshake.handshaking = false := by
  unfold turn
  cases t.branch with
  | tick => dsimp only; split <;> exact hs
  | specific => exact hs
  | control packet =>
    have hkept := handleSessionControl_handshaking packet (phase.handlerNow s.clock (s.clock + t.idle)) s.handshake hs
    dsimp only
    split <;> rename_i heq <;> rw [heq] at hkept <;> exact hkept

/-- The flag stays down through a run. -/
theorem LoopState.exchanges_handshaking (phase : PhaseLoop) : ∀ (s : LoopState) (ts : List LoopTurn),
    s.handshake.handshaking = false → ∀ e ∈ s.exchanges phase ts, ∃ (s' : LoopState) (t : LoopTurn),
      e = s'.exchange phase t ∧
      s'.handshake.handshaking = false
  | _, [], _, _, he => by cases he
  | s, t :: ts, hs, e, he => by
    rw [exchanges] at he
    rcases List.mem_cons.1 he with rfl | he
    · exact ⟨s, t, rfl, hs⟩
    · split at he
      · exact exchanges_handshaking phase _ ts (s.turn_handshaking phase t hs) e he
      · cases he

/-- What a sync of the connection's own id is answered once the handshake is completed. -/
theorem handleSessionControl_requestTimeSync {s : HandshakeState} {data : HandshakeSyncData} (now : Instant)
    (hs : s.handshaking = false) (hid : data.handshake = s.id) :
    (s.InTolerance data now ∧ (handleSessionControl (.requestTimeSync data) now s).1 =
      .ok (.handled [.timeSyncResponse])) ∨
    (¬ s.InTolerance data now ∧ ∃ delta, (handleSessionControl (.requestTimeSync data) now s).1 =
      .ok (.handled [.requestHandshake (s.buildSyncData now delta)])) := by
  have hh := s.handle_handles data now
  unfold handleSessionControl
  dsimp only
  generalize hr : s.handle data now = r at hh ⊢
  obtain ⟨answer, t⟩ := r
  cases hh with
  | mismatch hne => exact absurd hid hne
  | completed _ _ hs' => rw [hs] at hs'; cases hs'
  | ack _ hin _ => exact .inl ⟨hin, rfl⟩
  | exhausted _ _ hs' _ => rw [hs] at hs'; cases hs'
  | retry _ _ _ _ hs' _ _ => rw [hs] at hs'; cases hs'
  | periodic delta _ hout _ => exact .inr ⟨hout, delta, rfl⟩

/-- A turn woken by a control packet answers what the handler decides. -/
theorem LoopState.exchange_answer {phase : PhaseLoop} {s : LoopState} {t : LoopTurn} {packet : ControlC2s}
    {send : List ControlS2c} (hb : t.branch = .control packet)
    (h : (handleSessionControl packet (phase.handlerNow s.clock (s.clock + t.idle)) s.handshake).1 =
      .ok (.handled send)) :
    (s.exchange phase t).answer = .ok send := by
  show (s.turn phase t).1 = _
  unfold turn
  rw [hb]
  dsimp only
  generalize handleSessionControl packet (phase.handlerNow s.clock (s.clock + t.idle)) s.handshake = r at h
  obtain ⟨decision, handshake⟩ := r
  cases h
  rfl

/-! ## Uptimes -/

/-- Uptimes that fit the wire are told apart on it. -/
theorem fromDuration_inj {a b : Duration} (ha : a.asMillis < 4294967296) (hb : b.asMillis < 4294967296) :
    WireMillis32.fromDuration a = WireMillis32.fromDuration b ↔ a.asMillis = b.asMillis := by
  constructor
  · intro h
    have hmod := congrArg (fun time : WireMillis32 => time.asDuration.asMillis) h
    rw [WireMillis32.asMillis_fromDuration, WireMillis32.asMillis_fromDuration] at hmod
    omega
  · intro h
    unfold WireMillis32.fromDuration
    rw [h]

theorem inStep_congr {s : HandshakeState} {data : HandshakeSyncData} {now now' : Instant}
    (h : (s.uptimeAt now).asMillis = (s.uptimeAt now').asMillis) : InStep s data now ↔ InStep s data now' := by
  unfold InStep
  rw [h]

/-! ## The turn that carries a sync -/

/-- A turn with a sync judges it at its arrival exactly when the handler's reading of the clock is as good. -/
theorem LoopState.judged_iff_timely {phase : PhaseLoop} {s : LoopState} {t : LoopTurn} {data : HandshakeSyncData}
    (hs : s.handshake.handshaking = false) (ha : (s.exchange phase t).Admitted data) :
    (s.exchange phase t).Judged data ↔ (s.exchange phase t).Timely phase data := by
  obtain ⟨hb, hid, hd, hu⟩ := ha
  change t.branch = _ at hb
  change (s.handshake.uptimeAt (s.clock + t.idle)).asMillis < _ at hu
  set now := phase.handlerNow s.clock (s.clock + t.idle) with hnow
  -- the handler's reading is no later than the arrival
  have hle : now ≤ s.clock + t.idle := by
    rw [hnow]
    cases phase with
    | inGame => exact le_refl _
    | login => exact Nat.le_add_right _ _
    | select => exact Nat.le_add_right _ _
    | loading => exact Nat.le_add_right _ _
  have hun : (s.handshake.uptimeAt now).asMillis < 4294967296 :=
    (asMillis_mono (durationSince_mono hle _)).trans_lt hu
  have htimely : (s.exchange phase t).Timely phase data ↔ InStep s.handshake data now ∨
      (s.handshake.uptimeAt now).asMillis = (s.handshake.uptimeAt (s.clock + t.idle)).asMillis := by
    unfold LoopExchange.Timely
    cases phase with
    | inGame => exact ⟨fun _ => .inr rfl, fun _ => .inl rfl⟩
    | login => exact ⟨fun h => h.resolve_left (by decide), .inr⟩
    | select => exact ⟨fun h => h.resolve_left (by decide), .inr⟩
    | loading => exact ⟨fun h => h.resolve_left (by decide), .inr⟩
  rw [htimely]
  rcases handleSessionControl_requestTimeSync now hs hid with ⟨hin, hans⟩ | ⟨hout, delta, hans⟩
  · -- in step at the reading: the answer is the acknowledgement, and no sync is sent
    have hanswer := s.exchange_answer hb hans
    have hstep := (inTolerance_iff_inStep hd hun).1 hin
    refine ⟨fun _ => .inl hstep, fun _ => ⟨fun _ => hanswer, ?_⟩⟩
    intro _ send sync h hmem
    rw [hanswer] at h
    cases h
    simp at hmem
  · -- out of step at the reading: a sync is sent with the uptime of the reading
    have hanswer := s.exchange_answer hb hans
    have hstep := mt (inTolerance_iff_inStep hd hun).2 hout
    constructor
    · intro hj
      right
      by_cases hat : InStep s.handshake data (s.clock + t.idle)
      · have hack := hj.acked hat
        rw [hanswer] at hack
        simp at hack
      · have htime := hj.resynced hat _ _ hanswer (List.mem_singleton.2 rfl)
        exact (fromDuration_inj hun hu).1 htime
    · intro ht
      have hsame := ht.resolve_left hstep
      have hat : ¬ InStep s.handshake data (s.clock + t.idle) := mt (inStep_congr hsame).2 hstep
      refine ⟨fun h => absurd h hat, ?_⟩
      intro _ send sync h hmem
      rw [hanswer] at h
      cases h
      rw [List.mem_singleton] at hmem
      cases hmem
      exact (fromDuration_inj hun hu).2 hsame

/-- A phase judges every sync that a wait of this length brings exactly when it is the phase in game or no millisecond
of uptime goes by in the wait. -/
theorem LoopState.judges_every_sync_iff (phase : PhaseLoop) (s : LoopState) (idle : Duration)
    (hs : s.handshake.handshaking = false) (hu : (s.handshake.uptimeAt (s.clock + idle)).asMillis < 4294967296) :
    (∀ data busy, (s.exchange phase ⟨idle, .control (.requestTimeSync data), busy⟩).Admitted data →
      (s.exchange phase ⟨idle, .control (.requestTimeSync data), busy⟩).Judged data) ↔
    phase = .inGame ∨ (s.handshake.uptimeAt s.clock).asMillis = (s.handshake.uptimeAt (s.clock + idle)).asMillis := by
  constructor
  · intro h
    -- the client's clock is exact: it sends the uptime of the arrival
    let sync : HandshakeSyncData := ⟨s.handshake.id, .fromDuration (s.handshake.uptimeAt (s.clock + idle)), ⟨0⟩⟩
    have hadm : (s.exchange phase ⟨idle, .control (.requestTimeSync sync), 0⟩).Admitted sync :=
      ⟨rfl, rfl, Int32.le_refl 0, hu⟩
    have htime : sync.time.raw.toNat = (s.handshake.uptimeAt (s.clock + idle)).asMillis := UInt32.toNat_ofNat_of_lt' hu
    rcases (judged_iff_timely hs hadm).1 (h sync 0 hadm) with hgame | hstep | hsame
    · exact .inl hgame
    · right
      have hlow : 0 ≤ ((s.handshake.uptimeAt s.clock).asMillis : Int) -
        (sync.time.raw.toNat + (0 : Int32).toInt) := hstep.1
      have hmono := asMillis_mono (durationSince_mono (Nat.le_add_right s.clock idle) s.handshake.serverStart)
      have hmono' : (s.handshake.uptimeAt s.clock).asMillis ≤ (s.handshake.uptimeAt (s.clock + idle)).asMillis := hmono
      rw [htime] at hlow
      simp at hlow
      omega
    · exact .inr hsame
  · rintro h data busy hadm
    apply (judged_iff_timely hs hadm).2
    exact h.imp id .inr

/-! ## Every run of a loop -/

/-- In every run of a loop that starts with the handshake completed, a sync is judged at its arrival exactly when the
phase is the one in game, the sync is already in step at the top of the turn, or the wait ends in the millisecond of
uptime in which it began. -/
theorem loop_judges_at_arrival_iff (phase : PhaseLoop) (s : LoopState) (ts : List LoopTurn)
    (hs : s.handshake.handshaking = false) :
    ∀ e ∈ s.exchanges phase ts, ∀ data, e.Admitted data → (e.Judged data ↔ e.Timely phase data) := by
  intro e he data hadm
  obtain ⟨s', t, rfl, hs'⟩ := s.exchanges_handshaking phase ts hs e he
  exact LoopState.judged_iff_timely hs' hadm

/-- A connection of a server that has been up for a minute, at the top of a turn. -/
def idleConnection : LoopState where
  clock := 60000000000
  session := .new 60000000000 (.fromMillis 10000)
  handshake := ⟨⟨7⟩, 0, 0, 0, false⟩

/-- A second later the client, whose clock is exact, sends a sync. -/
def idleSync : HandshakeSyncData := ⟨⟨7⟩, ⟨61000⟩, ⟨0⟩⟩

def idleTurn : LoopTurn := ⟨.fromMillis 1000, .control (.requestTimeSync idleSync), 0⟩

theorem loop_judges_at_arrival_iff_idle :
    (idleConnection.exchange .inGame idleTurn).Judged idleSync ↔
      (idleConnection.exchange .inGame idleTurn).Timely .inGame idleSync :=
  loop_judges_at_arrival_iff .inGame idleConnection [idleTurn] rfl _ (List.mem_cons_self ..) idleSync
    ⟨rfl, rfl, by decide, by decide +kernel⟩

/-- In select the sync of an exact client that was silent for a second is answered with a sync of a second ago. -/
theorem idle_select_sync_misjudged :
    idleTurn.idle < idleConnection.session.heartbeatInterval ∧
    (idleConnection.exchange .select idleTurn).Admitted idleSync ∧
    InStep idleConnection.handshake idleSync (idleConnection.exchange .select idleTurn).arrival ∧
    (idleConnection.exchange .select idleTurn).answer = .ok [.requestHandshake ⟨⟨7⟩, ⟨60000⟩, ⟨30000⟩⟩] ∧
    ¬ (idleConnection.exchange .select idleTurn).Judged idleSync := by
  have hin : InStep idleConnection.handshake idleSync (idleConnection.exchange .select idleTurn).arrival := by
    unfold InStep
    decide +kernel
  have hanswer : (idleConnection.exchange .select idleTurn).answer =
      .ok [.requestHandshake ⟨⟨7⟩, ⟨60000⟩, ⟨30000⟩⟩] := by
    decide +kernel
  refine ⟨by decide +kernel, ⟨rfl, rfl, by decide, by decide +kernel⟩, hin, hanswer, ?_⟩
  intro hj
  have hack := hj.acked hin
  rw [hanswer] at hack
  simp at hack

end Zohar.Game
