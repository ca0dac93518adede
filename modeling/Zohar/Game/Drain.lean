/-
Draining a core. A flag and a watch channel tell the connections of it: every phase reads the flag before it sends its
entry packets, and subscribes to the channel when these are out. Flag and channel are written one after the other, and a
send that finds no receiver is lost. From zohar-gamesrv: drain.rs, handlers.rs, handlers/runtime.rs and the phases under
handlers, with the one task of zohar-core/src/app.rs that begins to drain. An event is one step of that task or of a
connection.
-/
import Zohar.Lib.Watch
import Zohar.Lib.Run

namespace Zohar.Game

open Zohar.Lib

/-! ## The controller -/

abbrev ConnId := Nat

structure ServerDrainController where
  draining : Bool
  activeConnections : Nat
  drainTx : Watch ConnId Bool

namespace ServerDrainController

def new : ServerDrainController := ⟨false, 0, .channel false⟩

def isDraining (c : ServerDrainController) : Bool := c.draining

def trackConnection (c : ServerDrainController) : ServerDrainController :=
  { c with activeConnections := c.activeConnections + 1 }

/-- The guard of the connection goes, and its receiver if it has one. -/
def dropConnection (c : ServerDrainController) (k : ConnId) : ServerDrainController :=
  { c with activeConnections := c.activeConnections - 1, drainTx := c.drainTx.drop k }

/-- The first half of `begin_draining`, which returns at once if the flag was set. -/
def swapDraining (c : ServerDrainController) : Bool × ServerDrainController := (c.draining, { c with draining := true })

/-- The second half; nobody looks at what the send answers. -/
def sendDrain (c : ServerDrainController) : ServerDrainController := { c with drainTx := (c.drainTx.send true).2 }

end ServerDrainController

/-! ## Connections -/

inductive PhaseLoop where
  | login | select | loading | inGame
  deriving DecidableEq, Repr

namespace PhaseLoop

def next : PhaseLoop → PhaseLoop
  | .login => .select
  | .select => .loading
  | .loading => .inGame
  | .inGame => .select

/-- How often the flag is read again before the phase is entered: `run_loading` and `prepare_ingame` read it too. -/
def furtherChecks : PhaseLoop → Nat
  | .login | .select => 0
  | .loading | .inGame => 1

end PhaseLoop

/-- The future of `wait_for_server_drain` that the `select!` of the loop has made: not polled yet, or waiting for a
change. -/
inductive DrainWait where
  | fresh | pending
  deriving DecidableEq, Repr

inductive ConnStage where
  | tracked
  | handshaking
  | checking (phase : PhaseLoop) (left : Nat)
  /-- The flag was not set: the entry packets are sent, with what has to be asked for first. -/
  | entering (phase : PhaseLoop)
  | looping (phase : PhaseLoop) (wait : DrainWait)
  deriving DecidableEq, Repr

def ConnStage.isLooping : ConnStage → Bool
  | .looping _ _ => true
  | _ => false

/-- How far the call of `begin_draining` has come. -/
inductive BeginDraining where
  | notCalled | swapped | returned
  deriving DecidableEq, Repr

structure DrainServer where
  controller : ServerDrainController
  beginning : BeginDraining
  conns : OrdMap ConnId ConnStage

inductive DrainEvent where
  | beginSwap
  | beginSend
  | accept (k : ConnId)
  | readFlag (k : ConnId)
  | handshaken (k : ConnId)
  | subscribe (k : ConnId)
  | poll (k : ConnId)
  /-- Another branch of the `select!` is taken and the loop goes on. -/
  | turn (k : ConnId)
  | next (k : ConnId)
  | drained (k : ConnId)
  /-- The connection ends for any other reason. -/
  | close (k : ConnId)
  deriving DecidableEq, Repr

def DrainEvent.isSubscribe : DrainEvent → Bool
  | .subscribe _ => true
  | _ => false

namespace DrainServer

def start : DrainServer := ⟨.new, .notCalled, .empty⟩

def put (s : DrainServer) (k : ConnId) (stage : ConnStage) : DrainServer := { s with conns := s.conns.insert k stage }

def close (s : DrainServer) (k : ConnId) : DrainServer :=
  { s with controller := s.controller.dropConnection k, conns := s.conns.erase k }

/-- The branch of `wait_for_server_drain` is ready: a fresh future looks at the value first, one that has seen `false`
waits for a change. -/
def drainEnabled (s : DrainServer) (k : ConnId) : DrainWait → Bool
  | .fresh => s.controller.drainTx.value
  | .pending => s.controller.drainTx.hasChanged k

end DrainServer

open DrainServer in
def drainStep (s : DrainServer) : DrainEvent → Option DrainServer
  | .beginSwap =>
    match s.beginning with
    | .swapped => none
    | .notCalled | .returned =>
      match s.controller.swapDraining with
      | (true, controller) => some { s with controller }
      | (false, controller) => some { s with controller, beginning := .swapped }
  | .beginSend =>
    match s.beginning with
    | .swapped => some { s with controller := s.controller.sendDrain, beginning := .returned }
    | .notCalled | .returned => none
  | .accept k =>
    match s.conns.get? k with
    | some _ => none
    | none => some ({ s with controller := s.controller.trackConnection }.put k .tracked)
  | .readFlag k =>
    match s.conns.get? k with
    | some .tracked => some (if s.controller.isDraining then s.close k else s.put k .handshaking)
    | some (.checking phase 0) => some (if s.controller.isDraining then s.close k else s.put k (.entering phase))
    | some (.checking phase (left + 1)) =>
      some (if s.controller.isDraining then s.close k else s.put k (.checking phase left))
    | _ => none
  | .handshaken k =>
    match s.conns.get? k with
    | some .handshaking => some (s.put k (.checking .login PhaseLoop.login.furtherChecks))
    | _ => none
  | .subscribe k =>
    match s.conns.get? k with
    | some (.entering phase) =>
      some ({ s with controller.drainTx := s.controller.drainTx.subscribe k }.put k (.looping phase .fresh))
    | _ => none
  | .poll k =>
    match s.conns.get? k with
    | some (.looping phase .fresh) =>
      match s.controller.drainTx.borrowAndUpdate k with
      | (true, drainTx) => some { s with controller.drainTx := drainTx }
      | (false, drainTx) => some ({ s with controller.drainTx := drainTx }.put k (.looping phase .pending))
    | _ => none
  | .turn k =>
    match s.conns.get? k with
    | some (.looping phase _) => some (s.put k (.looping phase .fresh))
    | _ => none
  | .next k =>
    match s.conns.get? k with
    | some (.looping phase _) =>
      some ({ s with controller.drainTx := s.controller.drainTx.drop k }.put k
        (.checking phase.next phase.next.furtherChecks))
    | _ => none
  | .drained k =>
    match s.conns.get? k with
    | some (.looping _ wait) => if s.drainEnabled k wait then some (s.close k) else none
    | _ => none
  | .close k => (s.conns.get? k).map fun _ => s.close k

/-! ## What is to hold -/

/-- Once `begin_draining` has returned, every connection that waits in a loop is told. -/
def DrainReaches (s : DrainServer) : Prop :=
  s.beginning = .returned → ∀ k phase wait, s.conns.get? k = some (.looping phase wait) → s.drainEnabled k wait = true

/-- The one send of `begin_draining` is over and found no receiver. -/
def DrainServer.signalLost (s : DrainServer) : Prop := s.beginning = .returned ∧ s.controller.drainTx.value = false

instance (s : DrainServer) : Decidable s.signalLost := inferInstanceAs (Decidable (_ ∧ _))

/-- Nobody subscribes after a send that found no receiver. -/
def SubscribesInTime (s : DrainServer) (event : DrainEvent) : Prop := event.isSubscribe = true → ¬ s.signalLost

instance (s : DrainServer) (event : DrainEvent) : Decidable (SubscribesInTime s event) :=
  inferInstanceAs (Decidable (_ → _))

/-! ## The invariant -/

/-- The receivers are those of the loops, and the value is `false` until the one send that is not lost. -/
structure DrainServer.Sound (s : DrainServer) : Prop where
  flag : s.controller.draining = true ↔ s.beginning ≠ .notCalled
  receivers : ∀ k, (s.controller.drainTx.receivers.get? k).isSome ↔
    ∃ phase wait, s.conns.get? k = some (.looping phase wait)
  pending : ∀ k phase, s.conns.get? k = some (.looping phase .pending) →
    s.controller.drainTx.receivers.get? k = some 0
  value : (s.controller.drainTx.value = false ∧ s.controller.drainTx.version = 0) ∨
    (s.controller.drainTx.value = true ∧ s.controller.drainTx.version = 1 ∧ s.beginning = .returned)
  active : s.controller.activeConnections = s.conns.count fun _ => true

namespace DrainServer

theorem sound_start : start.Sound where
  flag := by simp [start, ServerDrainController.new]
  receivers := by simp [start, ServerDrainController.new, Watch.channel]
  pending := by simp [start]
  value := .inl ⟨rfl, rfl⟩
  active := rfl

variable {s : DrainServer}

/-- A loop is told exactly if the value of the channel is `true`, in whatever state its future is. -/
theorem Sound.drainEnabled_eq (h : s.Sound) {k : ConnId} {phase : PhaseLoop} {wait : DrainWait}
    (hk : s.conns.get? k = some (.looping phase wait)) : s.drainEnabled k wait = s.controller.drainTx.value := by
  cases wait with
  | fresh => rfl
  | pending =>
    show s.controller.drainTx.hasChanged k = _
    unfold Watch.hasChanged
    rw [h.pending k phase hk]
    rcases h.value with ⟨hv, hn⟩ | ⟨hv, hn, _⟩
    · rw [hv, hn]; rfl
    · rw [hv, hn]; rfl

theorem Sound.drainReaches_iff (h : s.Sound) : DrainReaches s ↔
    (s.signalLost → ∀ k stage, s.conns.get? k = some stage → stage.isLooping = false) := by
  constructor
  · rintro hr ⟨hret, hv⟩ k stage hk
    cases stage with
    | looping phase wait =>
      have := hr hret k phase wait hk
      rw [h.drainEnabled_eq hk, hv] at this
      cases this
    | _ => rfl
  · intro hl hret k phase wait hk
    rw [h.drainEnabled_eq hk]
    by_contra hv
    have := hl ⟨hret, by simpa using hv⟩ k _ hk
    cases this

/-! ## Steps -/

/-- The connection is in another stage, outside its loop. -/
theorem Sound.put (h : s.Sound) {k : ConnId} {old stage : ConnStage} (hk : s.conns.get? k = some old)
    (ho : old.isLooping = false) (hn : stage.isLooping = false) : (s.put k stage).Sound where
  flag := h.flag
  receivers := by
    intro j
    show (s.controller.drainTx.receivers.get? j).isSome ↔ ∃ phase wait,
      (s.conns.insert k stage).get? j = some (.looping phase wait)
    rw [h.receivers j, OrdMap.get?_insert]
    split
    · rename_i hj
      subst hj
      rw [hk]
      constructor
      · rintro ⟨phase, wait, he⟩; cases he; cases ho
      · rintro ⟨phase, wait, he⟩; cases he; cases hn
    · exact Iff.rfl
  pending := by
    intro j phase hj
    rw [show (s.put k stage).conns = s.conns.insert k stage from rfl, OrdMap.get?_insert] at hj
    split at hj
    · cases hj; cases hn
    · exact h.pending j phase hj
  value := h.value
  active := by
    show s.controller.activeConnections = (s.conns.insert k stage).count _
    rw [OrdMap.count_insert, h.active, OrdMap.count_of_get?_some hk]

theorem Sound.close (h : s.Sound) {k : ConnId} {stage : ConnStage} (hk : s.conns.get? k = some stage) :
    (s.close k).Sound where
  flag := h.flag
  receivers := by
    intro j
    show ((s.controller.drainTx.drop k).receivers.get? j).isSome ↔
      ∃ phase wait, (s.conns.erase k).get? j = some (.looping phase wait)
    rw [Watch.get?_drop, OrdMap.get?_erase]
    split
    · simp
    · exact h.receivers j
  pending := by
    intro j phase hj
    obtain ⟨hne, hj⟩ := OrdMap.get?_erase_eq_some_iff.1 hj
    show (s.controller.drainTx.drop k).receivers.get? j = some 0
    rw [Watch.get?_drop, if_neg hne]
    exact h.pending j phase hj
  value := h.value
  active := by
    show s.controller.activeConnections - 1 = (s.conns.erase k).count _
    rw [h.active, OrdMap.count_of_get?_some hk]
    rfl

/-- A loop that makes its future anew or has polled it: the receiver is still there, and a future that waits has seen
the first version. -/
theorem Sound.loop (h : s.Sound) {k : ConnId} {phase : PhaseLoop} {old : DrainWait} (wait : DrainWait)
    (receivers : OrdMap ConnId Nat)
    (hk : s.conns.get? k = some (.looping phase old))
    (hrecv : ∀ j, (receivers.get? j).isSome ↔ (s.controller.drainTx.receivers.get? j).isSome)
    (hother : ∀ j, j ≠ k → receivers.get? j = s.controller.drainTx.receivers.get? j)
    (hseen : wait = .pending → receivers.get? k = some 0) :
    ({ s with controller.drainTx.receivers := receivers }.put k (.looping phase wait)).Sound where
  flag := h.flag
  receivers := by
    intro j
    show (receivers.get? j).isSome ↔ ∃ phase' wait', (s.conns.insert k (.looping phase wait)).get? j =
      some (.looping phase' wait')
    rw [hrecv j, h.receivers j, OrdMap.get?_insert]
    split
    · rename_i hj
      subst hj
      rw [hk]
      exact iff_of_true ⟨phase, old, rfl⟩ ⟨phase, wait, rfl⟩
    · exact Iff.rfl
  pending := by
    intro j phase' hj
    show receivers.get? j = some 0
    replace hj : (s.conns.insert k (.looping phase wait)).get? j = some (.looping phase' .pending) := hj
    rw [OrdMap.get?_insert] at hj
    split at hj
    · rename_i hjk
      subst hjk
      cases hj
      exact hseen rfl
    · rename_i hjk
      exact (hother j hjk).trans (h.pending j phase' hj)
  value := h.value
  active := by
    show s.controller.activeConnections = (s.conns.insert k (.looping phase wait)).count _
    rw [OrdMap.count_insert, h.active, OrdMap.count_of_get?_some hk]

/-- A receiver that looks at the value has seen its version. -/
theorem Sound.poll (h : s.Sound) {k : ConnId} {phase : PhaseLoop} {old : DrainWait} (wait : DrainWait)
    (hk : s.conns.get? k = some (.looping phase old)) (hv : wait = .pending → s.controller.drainTx.value = false) :
    ({ s with controller.drainTx := s.controller.drainTx.subscribe k }.put k (.looping phase wait)).Sound := by
  refine h.loop wait (s.controller.drainTx.subscribe k).receivers hk (fun j => ?_) (fun j hj => ?_) fun hw => ?_
  · rw [Watch.get?_subscribe]
    split
    · rename_i hj
      subst hj
      exact iff_of_true rfl ((h.receivers j).2 ⟨phase, old, hk⟩)
    · exact Iff.rfl
  · rw [Watch.get?_subscribe, if_neg hj]
  · rw [Watch.get?_subscribe, if_pos rfl]
    rcases h.value with ⟨_, hn⟩ | ⟨hv', _, _⟩
    · rw [hn]
    · rw [hv hw] at hv'
      cases hv'

theorem Sound.track (h : s.Sound) {k : ConnId} (hk : s.conns.get? k = none) :
    ({ s with controller := s.controller.trackConnection }.put k .tracked).Sound where
  flag := h.flag
  receivers := by
    intro j
    show (s.controller.drainTx.receivers.get? j).isSome ↔
      ∃ phase wait, (s.conns.insert k .tracked).get? j = some (.looping phase wait)
    rw [h.receivers j, OrdMap.get?_insert]
    split
    · rename_i hj
      subst hj
      simp [hk]
    · exact Iff.rfl
  pending := by
    intro j phase hj
    replace hj : (s.conns.insert k .tracked).get? j = some (.looping phase .pending) := hj
    rw [OrdMap.get?_insert] at hj
    split at hj
    · cases hj
    · exact h.pending j phase hj
  value := h.value
  active := by
    show s.controller.activeConnections + 1 = (s.conns.insert k .tracked).count _
    rw [OrdMap.count_insert, OrdMap.erase_of_get?_none hk, h.active]
    rfl

/-- A loop ends: its receiver is dropped. -/
theorem Sound.leave (h : s.Sound) {k : ConnId} {old : ConnStage} (stage : ConnStage) (hk : s.conns.get? k = some old)
    (hn : stage.isLooping = false) :
    ({ s with controller.drainTx := s.controller.drainTx.drop k }.put k stage).Sound where
  flag := h.flag
  receivers := by
    intro j
    show ((s.controller.drainTx.drop k).receivers.get? j).isSome ↔
      ∃ phase wait, (s.conns.insert k stage).get? j = some (.looping phase wait)
    rw [Watch.get?_drop, OrdMap.get?_insert]
    split
    · refine iff_of_false (by simp) ?_
      rintro ⟨phase, wait, he⟩
      cases he
      cases hn
    · exact h.receivers j
  pending := by
    intro j phase hj
    replace hj : (s.conns.insert k stage).get? j = some (.looping phase .pending) := hj
    rw [OrdMap.get?_insert] at hj
    show (s.controller.drainTx.drop k).receivers.get? j = some 0
    rw [Watch.get?_drop]
    split at hj
    · cases hj; cases hn
    · rename_i hne
      rw [if_neg hne]
      exact h.pending j phase hj
  value := h.value
  active := by
    show s.controller.activeConnections = (s.conns.insert k stage).count _
    rw [OrdMap.count_insert, h.active, OrdMap.count_of_get?_some hk]

theorem put_self {k : ConnId} {stage : ConnStage} (hk : s.conns.get? k = some stage) : s.put k stage = s := by
  unfold DrainServer.put
  rw [OrdMap.insert_of_get?_some hk]

/-- What loses no signal and lets nobody into a loop keeps what is to hold. -/
theorem Sound.reaches (h : s.Sound) {t : DrainServer} (ht : t.Sound) (hr : DrainReaches s)
    (hlost : t.signalLost → s.signalLost)
    (hloop : ∀ k stage, t.conns.get? k = some stage → stage.isLooping = true →
      ∃ old, s.conns.get? k = some old ∧ old.isLooping = true) : DrainReaches t := by
  refine ht.drainReaches_iff.2 fun hl k stage hk => ?_
  by_contra hne
  obtain ⟨old, hold, hyes⟩ := hloop k stage hk (by simpa using hne)
  have hno := h.drainReaches_iff.1 hr (hlost hl) k old hold
  rw [hno] at hyes
  cases hyes

theorem loops_put {k : ConnId} {new : ConnStage}
    (hn : new.isLooping = true → ∃ old, s.conns.get? k = some old ∧ old.isLooping = true) :
    ∀ j stage, (s.conns.insert k new).get? j = some stage → stage.isLooping = true →
      ∃ old, s.conns.get? j = some old ∧ old.isLooping = true := by
  intro j stage hj hl
  rw [OrdMap.get?_insert] at hj
  split at hj
  · rename_i hjk
    subst hjk
    cases hj
    exact hn hl
  · exact ⟨stage, hj, hl⟩

theorem loops_erase {k : ConnId} : ∀ j stage, (s.conns.erase k).get? j = some stage → stage.isLooping = true →
    ∃ old, s.conns.get? j = some old ∧ old.isLooping = true :=
  fun _ stage hj hl => ⟨stage, (OrdMap.get?_erase_eq_some_iff.1 hj).2, hl⟩

variable {t : DrainServer}

/-- The send reaches the loops there are, or there is none. -/
theorem Sound.sendDrain (h : s.Sound) (hb : s.beginning = .swapped) :
    ({ s with controller := s.controller.sendDrain, beginning := .returned } : DrainServer).Sound ∧
      DrainReaches { s with controller := s.controller.sendDrain, beginning := .returned } := by
  have hflag : s.controller.draining = true := h.flag.2 (by rw [hb]; simp)
  have hunsent : s.controller.drainTx.value = false ∧ s.controller.drainTx.version = 0 := by
    rcases h.value with hv | ⟨_, _, hret⟩
    · exact hv
    · rw [hb] at hret; cases hret
  unfold ServerDrainController.sendDrain
  rcases s.controller.drainTx.send_cases true with ⟨hnone, heq⟩ | ⟨_, heq⟩
  · rw [heq]
    have hsound : ({ s with beginning := .returned } : DrainServer).Sound :=
      ⟨iff_of_true hflag nofun, h.receivers, h.pending, .inl hunsent, h.active⟩
    refine ⟨hsound, hsound.drainReaches_iff.2 fun _ k stage hk => ?_⟩
    cases stage with
    | looping phase wait =>
      have := (h.receivers k).2 ⟨phase, wait, hk⟩
      rw [hnone k] at this
      cases this
    | _ => rfl
  · rw [heq]
    have hsound : ({ s with
        controller := { s.controller with
          drainTx := { s.controller.drainTx with value := true, version := s.controller.drainTx.version + 1 } },
        beginning := .returned } : DrainServer).Sound :=
      ⟨iff_of_true hflag nofun, h.receivers, h.pending, .inr ⟨rfl, by simp [hunsent.2], rfl⟩, h.active⟩
    exact ⟨hsound, hsound.drainReaches_iff.2 fun hl => absurd hl.2 (by simp)⟩

/-- One who subscribes has the current value: it is told if and only if the signal is not lost. -/
theorem Sound.subscribe (h : s.Sound) {k : ConnId} {phase : PhaseLoop} (hk : s.conns.get? k = some (.entering phase)) :
    ({ s with controller.drainTx := s.controller.drainTx.subscribe k }.put k (.looping phase .fresh)).Sound ∧
      (DrainReaches ({ s with controller.drainTx := s.controller.drainTx.subscribe k }.put k (.looping phase .fresh)) ↔
        ¬ s.signalLost) := by
  have hsound :
      ({ s with controller.drainTx := s.controller.drainTx.subscribe k }.put k (.looping phase .fresh)).Sound := by
    refine ⟨h.flag, fun j => ?_, fun j phase' hj => ?_, h.value, ?_⟩
    · show ((s.controller.drainTx.subscribe k).receivers.get? j).isSome ↔
        ∃ phase' wait, (s.conns.insert k (.looping phase .fresh)).get? j = some (.looping phase' wait)
      rw [Watch.get?_subscribe, OrdMap.get?_insert]
      split
      · exact iff_of_true rfl ⟨phase, .fresh, rfl⟩
      · exact h.receivers j
    · show (s.controller.drainTx.subscribe k).receivers.get? j = some 0
      replace hj : (s.conns.insert k (.looping phase .fresh)).get? j = some (.looping phase' .pending) := hj
      rw [OrdMap.get?_insert] at hj
      rw [Watch.get?_subscribe]
      split at hj
      · cases hj
      · rename_i hne
        rw [if_neg hne]
        exact h.pending j phase' hj
    · show s.controller.activeConnections = (s.conns.insert k (.looping phase .fresh)).count _
      rw [OrdMap.count_insert, h.active, OrdMap.count_of_get?_some hk]
  refine ⟨hsound, ?_⟩
  constructor
  · intro hreach hl
    have hself : (s.conns.insert k (.looping phase .fresh)).get? k = some (.looping phase .fresh) := by
      rw [OrdMap.get?_insert, if_pos rfl]
    have := hsound.drainReaches_iff.1 hreach hl k _ hself
    cases this
  · exact fun hnot => hsound.drainReaches_iff.2 fun hl => absurd hl hnot

/-- The flag is raised, by the first call or by one that finds it raised. -/
theorem Sound.beginSwap (h : s.Sound) (hs : drainStep s .beginSwap = some t) :
    t.Sound ∧ (DrainReaches s → DrainReaches t) := by
  simp only [drainStep, ServerDrainController.swapDraining] at hs
  cases hb : s.beginning with
  | swapped => rw [hb] at hs; cases hs
  | notCalled =>
    have hd : s.controller.draining = false := by
      rw [← Bool.not_eq_true, h.flag, hb]
      simp
    rw [hb, hd] at hs
    cases hs
    have hsound : ({ s with controller.draining := true, beginning := .swapped } : DrainServer).Sound := by
      refine ⟨iff_of_true rfl nofun, h.receivers, h.pending, ?_, h.active⟩
      rcases h.value with hv | ⟨_, _, hret⟩
      · exact .inl hv
      · rw [hb] at hret; cases hret
    exact ⟨hsound, fun _ => nofun⟩
  | returned =>
    have hd : s.controller.draining = true := h.flag.2 (by rw [hb]; simp)
    rw [hb, hd] at hs
    cases hs
    have hsound : ({ s with controller.draining := true, beginning := .returned } : DrainServer).Sound := by
      refine ⟨iff_of_true rfl nofun, h.receivers, h.pending, ?_, h.active⟩
      rcases h.value with hv | ⟨hv, hn, _⟩
      · exact .inl hv
      · exact .inr ⟨hv, hn, rfl⟩
    exact ⟨hsound, fun hr => h.reaches hsound hr (fun hl => ⟨hb, hl.2⟩) fun _ stage hj hl => ⟨stage, hj, hl⟩⟩

/-- What one step keeps, and that a subscription is the only step that can fail it. -/
theorem Sound.step (h : s.Sound) {event : DrainEvent} (hs : drainStep s event = some t) :
    t.Sound ∧ (DrainReaches s → (DrainReaches t ↔ SubscribesInTime s event)) := by
  have hclose : ∀ {k stage}, s.conns.get? k = some stage →
      (s.close k).Sound ∧ (DrainReaches s → DrainReaches (s.close k)) := fun hk =>
    ⟨h.close hk, fun hr => h.reaches (h.close hk) hr id loops_erase⟩
  have hput : ∀ {k old new}, s.conns.get? k = some old → old.isLooping = false → new.isLooping = false →
      (s.put k new).Sound ∧ (DrainReaches s → DrainReaches (s.put k new)) := fun hk ho hn =>
    ⟨h.put hk ho hn, fun hr => h.reaches (h.put hk ho hn) hr id (loops_put fun hl => by rw [hn] at hl; cases hl)⟩
  -- every event but a subscription keeps what is to hold
  have hquiet : event.isSubscribe = false → t.Sound ∧ (DrainReaches s → DrainReaches t) →
      t.Sound ∧ (DrainReaches s → (DrainReaches t ↔ SubscribesInTime s event)) := fun hev ht =>
    ⟨ht.1, fun hr => iff_of_true (ht.2 hr) fun hsub => by rw [hev] at hsub; cases hsub⟩
  cases event with
  | beginSwap => exact hquiet rfl (h.beginSwap hs)
  | beginSend =>
    refine hquiet rfl ?_
    simp only [drainStep] at hs
    split at hs
    · rename_i hb
      cases hs
      exact ⟨(h.sendDrain hb).1, fun _ => (h.sendDrain hb).2⟩
    · cases hs
    · cases hs
  | accept k =>
    refine hquiet rfl ?_
    simp only [drainStep] at hs
    split at hs
    · cases hs
    · rename_i hk
      cases hs
      have hsound := h.track hk
      exact ⟨hsound, fun hr => h.reaches hsound hr id (loops_put nofun)⟩
  | readFlag k =>
    refine hquiet rfl ?_
    simp only [drainStep] at hs
    split at hs
    · rename_i hk
      cases hs
      split
      · exact hclose hk
      · exact hput hk rfl rfl
    · rename_i hk
      cases hs
      split
      · exact hclose hk
      · exact hput hk rfl rfl
    · rename_i hk
      cases hs
      split
      · exact hclose hk
      · exact hput hk rfl rfl
    · cases hs
  | handshaken k =>
    refine hquiet rfl ?_
    simp only [drainStep] at hs
    split at hs
    · rename_i hk
      cases hs
      exact hput hk rfl rfl
    · cases hs
  | subscribe k =>
    simp only [drainStep] at hs
    split at hs
    · rename_i phase hk
      cases hs
      obtain ⟨hsound, hiff⟩ := h.subscribe hk
      exact ⟨hsound, fun _ => hiff.trans ⟨fun hnot _ => hnot, fun hin => hin rfl⟩⟩
    · cases hs
  | poll k =>
    refine hquiet rfl ?_
    simp only [drainStep, Watch.borrowAndUpdate] at hs
    split at hs
    · rename_i phase hk
      cases hv : s.controller.drainTx.value with
      | true =>
        rw [hv] at hs
        cases hs
        have hsound := h.poll .fresh hk nofun
        rw [put_self (s := { s with controller.drainTx := s.controller.drainTx.subscribe k }) hk] at hsound
        exact ⟨hsound, fun hr => h.reaches hsound hr id fun _ stage hj hl => ⟨stage, hj, hl⟩⟩
      | false =>
        rw [hv] at hs
        cases hs
        have hsound := h.poll .pending hk fun _ => hv
        exact ⟨hsound, fun hr => h.reaches hsound hr id (loops_put fun _ => ⟨_, hk, rfl⟩)⟩
    · cases hs
  | turn k =>
    refine hquiet rfl ?_
    simp only [drainStep] at hs
    split at hs
    · rename_i phase old hk
      cases hs
      have hsound := h.loop .fresh s.controller.drainTx.receivers hk (fun _ => Iff.rfl) (fun _ _ => rfl) nofun
      exact ⟨hsound, fun hr => h.reaches hsound hr id (loops_put fun _ => ⟨_, hk, rfl⟩)⟩
    · cases hs
  | next k =>
    refine hquiet rfl ?_
    simp only [drainStep] at hs
    split at hs
    · rename_i phase old hk
      cases hs
      have hsound := h.leave (.checking phase.next phase.next.furtherChecks) hk rfl
      exact ⟨hsound, fun hr => h.reaches hsound hr id (loops_put nofun)⟩
    · cases hs
  | drained k =>
    refine hquiet rfl ?_
    simp only [drainStep] at hs
    split at hs
    · rename_i hk
      split at hs
      · cases hs
        exact hclose hk
      · cases hs
    · cases hs
  | close k =>
    refine hquiet rfl ?_
    obtain ⟨stage, hk, rfl⟩ := Option.map_eq_some_iff.1 hs
    exact hclose hk

end DrainServer

/-! ## Runs -/

/-- The counter that the shutdown waits for counts the connections that are there. -/
theorem activeConnections_eq_count {events : List DrainEvent} {s : DrainServer}
    (hrun : run drainStep .start events = some s) :
    s.controller.activeConnections = s.conns.count fun _ => true :=
  (run_inv (I := DrainServer.Sound) (fun _ _ _ h hs => (h.step hs).1) DrainServer.sound_start hrun).active

/-- For every interleaving of `begin_draining` with any connections: once it has returned, every connection that waits
in a loop is told, exactly if nobody subscribes after the one send when that has found no receiver. -/
theorem drain_reaches_iff {events : List DrainEvent} {s : DrainServer} (hrun : run drainStep .start events = some s) :
    Along drainStep DrainReaches .start events ↔ Meets drainStep SubscribesInTime .start events :=
  along_iff_meets (I := DrainServer.Sound) (fun _ _ _ h hr hs => ⟨(h.step hs).1, (h.step hs).2 hr⟩)
    DrainServer.sound_start nofun hrun

/-- A connection that has read the flag just before it is set. -/
def enteringLogin (k : ConnId) : List DrainEvent := [.accept k, .readFlag k, .handshaken k, .readFlag k]

/-- The second connection is late, but the first one waits in its loop when the channel is written. -/
theorem drain_reaches_iff_two : ∃ s, run drainStep .start
      (enteringLogin 1 ++ [.subscribe 1, .poll 1] ++ enteringLogin 2 ++ [.beginSwap, .beginSend, .subscribe 2]) =
      some s ∧
    Along drainStep DrainReaches .start
      (enteringLogin 1 ++ [.subscribe 1, .poll 1] ++ enteringLogin 2 ++ [.beginSwap, .beginSend, .subscribe 2]) :=
  ⟨_, rfl, (drain_reaches_iff rfl).2 (by decide)⟩

/-- The only connection is late: the channel has no receiver when it is written, and the connection waits in its loop
for a change that does not come. -/
theorem late_connection_not_drained : ∃ s, run drainStep .start
      (enteringLogin 1 ++ [.beginSwap, .beginSend, .subscribe 1, .poll 1, .turn 1, .poll 1]) = some s ∧
    s.beginning = .returned ∧ s.controller.isDraining = true ∧ s.conns.get? 1 = some (.looping .login .pending) ∧
    s.drainEnabled 1 .pending = false ∧ ¬ DrainReaches s := by
  refine ⟨_, rfl, rfl, rfl, rfl, rfl, fun h => ?_⟩
  exact absurd (h rfl 1 .login .pending rfl) (by decide)

end Zohar.Game
