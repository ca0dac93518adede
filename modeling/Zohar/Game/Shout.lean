/-
The way of a global shout from the database to a map: a listener puts the notifications into one broadcast channel, a
pump decodes them into a second one, and an ingress task takes the events to the map. Both loops end at the first
receive that is not a message. From zohar-gamesrv: infra/message_bus.rs and infra/cluster_events_pg.rs; from zohar-core:
runtime/event_ingress.rs. The JSON parser is a third-party crate and a parameter. An event is one turn of one of the
tasks.
-/
import Zohar.Lib.Broadcast
import Zohar.Lib.Run
import Zohar.Game.Chat

namespace Zohar.Game

open Zohar.Lib Zohar.Net

/-! ## Payloads -/

structure GlobalShoutPayload where
  fromPlayerName : Text
  fromEmpire : UInt8
  message : Text
  deriving DecidableEq, Repr

structure GlobalShoutEvent where
  fromPlayerName : Text
  fromEmpire : Empire
  message : Text
  deriving DecidableEq, Repr

inductive ClusterEvent where
  | globalShout (shout : GlobalShoutEvent)
  deriving DecidableEq, Repr

structure GlobalShoutMsg where
  fromPlayerName : Text
  fromEmpire : Empire
  messageBytes : Bytes
  deriving DecidableEq, Repr

def Net.Empire.toDomain : Net.Empire → Empire
  | .red => .red
  | .yellow => .yellow
  | .blue => .blue

/-- `serde_json::from_str`. -/
abbrev PayloadParser := Text → Option GlobalShoutPayload

/-- `none` where the payload does not parse or its empire has no variant. -/
def decodeGlobalShout (parse : PayloadParser) (payload : Text) : Option ClusterEvent := do
  let decoded ← parse payload
  let fromEmpire ← (ofRepr decoded.fromEmpire : Option Net.Empire)
  return .globalShout ⟨decoded.fromPlayerName, Net.Empire.toDomain fromEmpire, decoded.message⟩

/-- What `forward_global_shout` tries to send to the map. -/
def ClusterEvent.toMsg : ClusterEvent → GlobalShoutMsg
  | .globalShout shout => ⟨shout.fromPlayerName, shout.fromEmpire, utf8 shout.message⟩

/-! ## The tasks -/

inductive TaskState where
  | idle | running | ended
  deriving DecidableEq, Repr

/-- The number of the notification that something came in tells notifications apart; the code does not carry it. -/
structure Numbered (α : Type) where
  no : Nat
  value : α
  deriving DecidableEq, Repr

/-- The receiver of a channel is that of its one task. `forwarded` is what was handed to the map channel, which refuses
it where it is full itself. -/
structure ShoutPipeline where
  published : Nat
  raw : Broadcast Unit (Numbered Text)
  events : Broadcast Unit (Numbered ClusterEvent)
  pump : TaskState
  ingress : TaskState
  forwarded : List (Numbered GlobalShoutMsg)

inductive ShoutEvent where
  /-- The listener receives a notification and sends it on. -/
  | notify (payload : Text)
  /-- `ensure_pump`: the pump subscribes to the notifications, once. -/
  | ensurePump
  /-- The ingress task subscribes, after that. -/
  | subscribe
  | pumpTurn
  | ingressTurn
  deriving DecidableEq, Repr

namespace ShoutPipeline

def broadcastCapacity : Nat := 1024

def start : ShoutPipeline := ⟨0, .channel broadcastCapacity, .channel broadcastCapacity, .idle, .idle, []⟩

def notify (s : ShoutPipeline) (payload : Text) : ShoutPipeline :=
  { s with published := s.published + 1, raw := (s.raw.send ⟨s.published, payload⟩).2 }

end ShoutPipeline

open ShoutPipeline in
def shoutStep (parse : PayloadParser) (s : ShoutPipeline) : ShoutEvent → Option ShoutPipeline
  | .notify payload => some (s.notify payload)
  | .ensurePump => if s.pump = .idle then some { s with raw := s.raw.subscribe (), pump := .running } else none
  | .subscribe =>
    if s.ingress = .idle ∧ s.pump ≠ .idle then
      some { s with events := s.events.subscribe (), ingress := .running }
    else none
  | .pumpTurn =>
    if s.pump = .running then
      match s.raw.recv () with
      | none => none
      | some (.message payload, raw) =>
        match decodeGlobalShout parse payload.value with
        | some event => some { s with raw, events := (s.events.send ⟨payload.no, event⟩).2 }
        -- only a warning
        | none => some { s with raw }
      -- `while let Ok(..)` ends, and the receiver goes with the task
      | some (.lagged _, raw) => some { s with raw := raw.drop (), pump := .ended }
    else none
  | .ingressTurn =>
    if s.ingress = .running then
      match s.events.recv () with
      | none => none
      | some (.message event, events) =>
        some { s with events, forwarded := s.forwarded ++ [⟨event.no, event.value.toMsg⟩] }
      | some (.lagged _, events) => some { s with events := events.drop (), ingress := .ended }
    else none

/-! ## What a turn can do -/

section Steps

variable (parse : PayloadParser)

/-- The turns, each with its guards. -/
inductive ShoutSteps (s : ShoutPipeline) : ShoutEvent → ShoutPipeline → Prop
  | notify (payload : Text) : ShoutSteps s (.notify payload) (s.notify payload)
  | ensurePump (hp : s.pump = .idle) :
    ShoutSteps s .ensurePump { s with raw := s.raw.subscribe (), pump := .running }
  | subscribe (hi : s.ingress = .idle) (hp : s.pump ≠ .idle) :
    ShoutSteps s .subscribe { s with events := s.events.subscribe (), ingress := .running }
  | decoded (payload : Numbered Text) (event : ClusterEvent) (raw : Broadcast Unit (Numbered Text))
    (hp : s.pump = .running)
    (hr : s.raw.Receives () (.message payload) raw) (hd : decodeGlobalShout parse payload.value = some event) :
    ShoutSteps s .pumpTurn { s with raw, events := (s.events.send ⟨payload.no, event⟩).2 }
  | warned (payload : Numbered Text) (raw : Broadcast Unit (Numbered Text)) (hp : s.pump = .running)
    (hr : s.raw.Receives () (.message payload) raw) (hd : decodeGlobalShout parse payload.value = none) :
    ShoutSteps s .pumpTurn { s with raw }
  | pumpEnds (missed : Nat) (raw : Broadcast Unit (Numbered Text)) (hp : s.pump = .running)
    (hr : s.raw.Receives () (.lagged missed) raw) :
    ShoutSteps s .pumpTurn { s with raw := raw.drop (), pump := .ended }
  | forwarded (event : Numbered ClusterEvent) (events : Broadcast Unit (Numbered ClusterEvent))
    (hi : s.ingress = .running)
    (hr : s.events.Receives () (.message event) events) :
    ShoutSteps s .ingressTurn { s with events, forwarded := s.forwarded ++ [⟨event.no, event.value.toMsg⟩] }
  | ingressEnds (missed : Nat) (events : Broadcast Unit (Numbered ClusterEvent)) (hi : s.ingress = .running)
    (hr : s.events.Receives () (.lagged missed) events) :
    ShoutSteps s .ingressTurn { s with events := events.drop (), ingress := .ended }

variable {parse}

theorem shoutSteps_of_step {s t : ShoutPipeline} {e : ShoutEvent} (h : shoutStep parse s e = some t) :
    ShoutSteps parse s e t := by
  cases e with
  | notify payload => cases h; exact .notify payload
  | ensurePump =>
    simp only [shoutStep] at h
    split at h
    · rename_i hp; cases h; exact .ensurePump hp
    · cases h
  | subscribe =>
    simp only [shoutStep] at h
    split at h
    · rename_i hp; cases h; exact .subscribe hp.1 hp.2
    · cases h
  | pumpTurn =>
    simp only [shoutStep] at h
    split at h
    · rename_i hp
      split at h
      · cases h
      · rename_i payload raw hr
        have hr := Broadcast.receives_of_recv hr
        split at h
        · rename_i event hd; cases h; exact .decoded payload event raw hp hr hd
        · rename_i hd; cases h; exact .warned payload raw hp hr hd
      · rename_i missed raw hr; cases h; exact .pumpEnds missed raw hp (Broadcast.receives_of_recv hr)
    · cases h
  | ingressTurn =>
    simp only [shoutStep] at h
    split at h
    · rename_i hi
      split at h
      · cases h
      · rename_i event events hr; cases h; exact .forwarded event events hi (Broadcast.receives_of_recv hr)
      · rename_i missed events hr; cases h; exact .ingressEnds missed events hi (Broadcast.receives_of_recv hr)
    · cases h

end Steps

/-! ## Invariants -/

namespace ShoutPipeline

/-- The numbers of what has been forwarded and of what there is still to read, from the map back to the listener. -/
def numbers (s : ShoutPipeline) : List Nat :=
  s.forwarded.map Numbered.no ++ ((s.events.unread ()).map Numbered.no ++ (s.raw.unread ()).map Numbered.no)

/-- What was published earlier is ahead. -/
def InOrder (s : ShoutPipeline) : Prop := s.numbers.Pairwise (· < ·) ∧ ∀ n ∈ s.numbers, n < s.published

/-- The ingress task subscribes after the pump; a task has a receiver while it runs. -/
structure Wf (s : ShoutPipeline) : Prop where
  rawPlaced : s.raw.Placed
  eventsPlaced : s.events.Placed
  pump : (s.raw.receivers.get? ()).isSome ↔ s.pump = .running
  ingress : (s.events.receivers.get? ()).isSome ↔ s.ingress = .running
  order : s.pump = .idle → s.ingress = .idle
  inOrder : s.InOrder

/-- Both loops are in progress. -/
def Running (s : ShoutPipeline) : Prop := s.pump = .running ∧ s.ingress = .running

/-- A loop has ended. -/
def Deaf (s : ShoutPipeline) : Prop := s.pump = .ended ∨ s.ingress = .ended

def WithinCapacity (s : ShoutPipeline) : Prop := s.raw.WithinCapacity () ∧ s.events.WithinCapacity ()

/-- No task has anything left to read. -/
def Quiet (s : ShoutPipeline) : Prop := s.raw.unread () = [] ∧ s.events.unread () = []

instance (s : ShoutPipeline) : Decidable s.WithinCapacity := inferInstanceAs (Decidable (_ ∧ _))

instance (s : ShoutPipeline) : Decidable s.Quiet := inferInstanceAs (Decidable (_ ∧ _))

/-- The task whose turn it is does not find that it has lagged. -/
def NotLagging (s : ShoutPipeline) : ShoutEvent → Prop
  | .pumpTurn => s.raw.WithinCapacity ()
  | .ingressTurn => s.events.WithinCapacity ()
  | _ => True

instance (s : ShoutPipeline) : ∀ e, Decidable (s.NotLagging e)
  | .notify _ | .ensurePump | .subscribe => .isTrue trivial
  | .pumpTurn => inferInstanceAs (Decidable (s.raw.WithinCapacity ()))
  | .ingressTurn => inferInstanceAs (Decidable (s.events.WithinCapacity ()))

theorem wf_start : start.Wf where
  rawPlaced := Broadcast.placed_channel _
  eventsPlaced := Broadcast.placed_channel _
  pump := by decide
  ingress := by decide
  order := fun _ => rfl
  inOrder := ⟨.nil, fun _ hn => absurd hn List.not_mem_nil⟩

end ShoutPipeline

open ShoutPipeline

section Invariants

variable {parse : PayloadParser}

theorem receiver_of_unread {α : Type} {b : Broadcast Unit α} (h : b.unread () ≠ []) : (b.receivers.get? ()).isSome := by
  by_contra hn
  rw [Option.not_isSome_iff_eq_none] at hn
  exact h (Broadcast.unread_of_get?_none hn)

theorem unread_drop {α : Type} {b : Broadcast Unit α} : (b.drop ()).unread () = [] :=
  Broadcast.unread_of_get?_none (by simp)

/-- A send adds to what a receiver has to read, where there is one. -/
theorem unread_send_sublist {α : Type} {b : Broadcast Unit α} (hb : b.Placed) (value : α) :
    ((b.send value).2.unread ()).Sublist (b.unread () ++ [value]) := by
  by_cases h : (b.receivers.get? ()).isSome
  · rw [Broadcast.unread_send hb h]
  · rw [Broadcast.unread_of_get?_none]
    · exact List.nil_sublist _
    · rw [Broadcast.send_receivers]
      exact Option.not_isSome_iff_eq_none.1 h

/-- A turn passes on, or loses, what is in the pipeline; a notification comes in behind all of it. -/
theorem ShoutSteps.numbers_sublist {s t : ShoutPipeline} {e : ShoutEvent} (hst : ShoutSteps parse s e t) (h : s.Wf) :
    t.published = s.published ∧ t.numbers.Sublist s.numbers ∨
      t.published = s.published + 1 ∧ t.numbers.Sublist (s.numbers ++ [s.published]) := by
  cases hst with
  | notify payload =>
    refine .inr ⟨rfl, ?_⟩
    have hraw := (unread_send_sublist h.rawPlaced ⟨s.published, payload⟩).map Numbered.no
    rw [List.map_append] at hraw
    unfold numbers
    rw [List.append_assoc, List.append_assoc]
    exact .append_left (.append_left hraw _) _
  | ensurePump hp =>
    refine .inl ⟨rfl, .append_left (.append_left ?_ _) _⟩
    rw [Broadcast.unread_subscribe]
    exact List.nil_sublist _
  | subscribe hi hp =>
    refine .inl ⟨rfl, .append_left (.append_right ?_ _) _⟩
    rw [Broadcast.unread_subscribe]
    exact List.nil_sublist _
  | decoded payload event raw hp hr hd =>
    refine .inl ⟨rfl, .append_left ?_ _⟩
    have hevents := (unread_send_sublist h.eventsPlaced ⟨payload.no, event⟩).map Numbered.no
    rw [List.map_append] at hevents
    rw [hr.unread_eq, List.map_cons, List.append_cons]
    exact hevents.append_right _
  | warned payload raw hp hr hd =>
    refine .inl ⟨rfl, .append_left (.append_left ?_ _) _⟩
    rw [hr.unread_eq]
    exact List.sublist_cons_self ..
  | pumpEnds missed raw hp hr =>
    refine .inl ⟨rfl, .append_left (.append_left ?_ _) _⟩
    rw [unread_drop]
    exact List.nil_sublist _
  | forwarded event events hi hr =>
    refine .inl ⟨rfl, ?_⟩
    unfold numbers
    dsimp only
    rw [hr.unread_eq, List.map_append, List.append_assoc]
    exact List.Sublist.refl _
  | ingressEnds missed events hi hr =>
    refine .inl ⟨rfl, .append_left (.append_right ?_ _) _⟩
    rw [unread_drop]
    exact List.nil_sublist _

theorem ShoutSteps.inOrder {s t : ShoutPipeline} {e : ShoutEvent} (hst : ShoutSteps parse s e t) (h : s.Wf) :
    t.InOrder := by
  obtain ⟨hpair, hlt⟩ := h.inOrder
  rcases hst.numbers_sublist h with ⟨hp, hsub⟩ | ⟨hp, hsub⟩
  · refine ⟨hpair.sublist hsub, fun n hn => ?_⟩
    rw [hp]
    exact hlt n (hsub.subset hn)
  · have hall : (s.numbers ++ [s.published]).Pairwise (· < ·) :=
      List.pairwise_append.2 ⟨hpair, List.pairwise_singleton .., fun n hn m hm => by
        rw [List.mem_singleton.1 hm]
        exact hlt n hn⟩
    refine ⟨hall.sublist hsub, fun n hn => ?_⟩
    rw [hp]
    rcases List.mem_append.1 (hsub.subset hn) with hn | hn
    · exact (hlt n hn).trans (Nat.lt_succ_self _)
    · rw [List.mem_singleton.1 hn]
      exact Nat.lt_succ_self _

theorem ShoutSteps.wf {s t : ShoutPipeline} {e : ShoutEvent} (hst : ShoutSteps parse s e t) (h : s.Wf) : t.Wf := by
  have hin := hst.inOrder h
  cases hst with
  | notify payload =>
    exact { h with
      rawPlaced := h.rawPlaced.send _
      pump := by
        show ((s.raw.send _).2.receivers.get? ()).isSome ↔ _
        rw [Broadcast.send_receivers]
        exact h.pump
      inOrder := hin }
  | ensurePump hp =>
    exact { h with
      rawPlaced := h.rawPlaced.subscribe ()
      pump := by simp
      order := fun h => by cases h
      inOrder := hin }
  | subscribe hi hp =>
    exact { h with
      eventsPlaced := h.eventsPlaced.subscribe ()
      ingress := by simp
      order := fun hp' => absurd hp' hp
      inOrder := hin }
  | decoded payload event raw hp hr hd =>
    exact { h with
      rawPlaced := hr.placed h.rawPlaced
      eventsPlaced := h.eventsPlaced.send _
      pump := iff_of_true hr.get?_isSome' hp
      ingress := by
        show ((s.events.send _).2.receivers.get? ()).isSome ↔ _
        rw [Broadcast.send_receivers]
        exact h.ingress
      inOrder := hin }
  | warned payload raw hp hr hd =>
    exact { h with
      rawPlaced := hr.placed h.rawPlaced
      pump := iff_of_true hr.get?_isSome' hp
      inOrder := hin }
  | pumpEnds missed raw hp hr =>
    exact { h with
      rawPlaced := (hr.placed h.rawPlaced).drop ()
      pump := by simp
      order := fun h => by cases h
      inOrder := hin }
  | forwarded event events hi hr =>
    exact { h with
      eventsPlaced := hr.placed h.eventsPlaced
      ingress := iff_of_true hr.get?_isSome' hi
      inOrder := hin }
  | ingressEnds missed events hi hr =>
    exact { h with
      eventsPlaced := (hr.placed h.eventsPlaced).drop ()
      ingress := by simp
      order := fun hp => by rw [h.order hp] at hi; cases hi
      inOrder := hin }

theorem notify_wf {s : ShoutPipeline} (h : s.Wf) (payload : Text) : (s.notify payload).Wf :=
  (@ShoutSteps.notify (fun _ => none) s payload).wf h

theorem run_wf {s : ShoutPipeline} {es : List ShoutEvent} (h : run (shoutStep parse) start es = some s) : s.Wf :=
  run_inv (I := Wf) (fun _ _ _ hs ht => (shoutSteps_of_step ht).wf hs) wf_start h

/-! ## Deafness -/

theorem ShoutSteps.deaf {s t : ShoutPipeline} {e : ShoutEvent} (hst : ShoutSteps parse s e t) (h : s.Deaf) :
    t.Deaf := by
  unfold Deaf at h ⊢
  cases hst with
  | notify payload => exact h
  | ensurePump hp => exact .inr (h.resolve_left (by rw [hp]; decide))
  | subscribe hi hp => exact .inl (h.resolve_right (by rw [hi]; decide))
  | decoded payload event raw hp hr hd => exact h
  | warned payload raw hp hr hd => exact h
  | pumpEnds missed raw hp hr => exact .inl rfl
  | forwarded event events hi hr => exact h
  | ingressEnds missed events hi hr => exact .inr rfl

/-- A turn makes the pipeline deaf exactly when its task finds that it has lagged. -/
theorem ShoutSteps.deaf_iff {s t : ShoutPipeline} {e : ShoutEvent} (hst : ShoutSteps parse s e t) (h : ¬ s.Deaf) :
    ¬ t.Deaf ↔ s.NotLagging e := by
  unfold Deaf at h ⊢
  rw [not_or] at h
  cases hst with
  | notify payload => exact iff_of_true (not_or.2 h) trivial
  | ensurePump hp => exact iff_of_true (not_or.2 ⟨by simp, h.2⟩) trivial
  | subscribe hi hp => exact iff_of_true (not_or.2 ⟨h.1, by simp⟩) trivial
  | decoded payload event raw hp hr hd => exact iff_of_true (not_or.2 h) (hr.withinCapacity.2 ⟨_, rfl⟩)
  | warned payload raw hp hr hd => exact iff_of_true (not_or.2 h) (hr.withinCapacity.2 ⟨_, rfl⟩)
  | pumpEnds missed raw hp hr =>
    exact iff_of_false (fun hn => hn (.inl rfl)) (mt hr.withinCapacity.1 (by simp))
  | forwarded event events hi hr => exact iff_of_true (not_or.2 h) (hr.withinCapacity.2 ⟨_, rfl⟩)
  | ingressEnds missed events hi hr =>
    exact iff_of_false (fun hn => hn (.inr rfl)) (mt hr.withinCapacity.1 (by simp))

/-- A run has not ended a loop exactly if no task found in its turn that it had lagged. -/
theorem meets_notLagging_iff {s : ShoutPipeline} {es : List ShoutEvent} (h : run (shoutStep parse) start es = some s) :
    Meets (shoutStep parse) NotLagging start es ↔ ¬ s.Deaf :=
  meets_iff_of_absorbing (fun _ _ _ hs ht => (shoutSteps_of_step ht).deaf hs)
    (fun _ _ _ hs ht => (shoutSteps_of_step ht).deaf_iff hs) (by simp [Deaf, start]) h

theorem ShoutSteps.ingress_ne_idle {s t : ShoutPipeline} {e : ShoutEvent} (hst : ShoutSteps parse s e t)
    (h : s.ingress ≠ .idle ∨ e = .subscribe) : t.ingress ≠ .idle := by
  cases hst with
  | notify payload => exact h.resolve_right (by simp)
  | ensurePump hp => exact h.resolve_right (by simp)
  | subscribe hi hp => simp
  | decoded payload event raw hp hr hd => exact h.resolve_right (by simp)
  | warned payload raw hp hr hd => exact h.resolve_right (by simp)
  | pumpEnds missed raw hp hr => exact h.resolve_right (by simp)
  | forwarded event events hi hr => exact h.resolve_right (by simp)
  | ingressEnds missed events hi hr => simp

theorem run_ingress_ne_idle : ∀ {es : List ShoutEvent} {s t : ShoutPipeline}, run (shoutStep parse) s es = some t →
    s.ingress ≠ .idle ∨ .subscribe ∈ es → t.ingress ≠ .idle
  | [], _, _, hr, h => by
    cases hr
    exact h.resolve_right List.not_mem_nil
  | e :: es, s, u, hr, h => by
    obtain ⟨t, ht, hr⟩ := (run_cons_eq_some _).1 hr
    apply run_ingress_ne_idle hr
    by_cases he : s.ingress ≠ .idle ∨ e = .subscribe
    · exact .inl ((shoutSteps_of_step ht).ingress_ne_idle he)
    · rw [not_or] at he
      exact .inr ((List.mem_cons.1 (h.resolve_left he.1)).resolve_left fun h => he.2 h.symm)

/-- Once the ingress task has subscribed, the loops are in progress or one of them has ended. -/
theorem running_iff_not_deaf {s : ShoutPipeline} (hw : s.Wf) (hi : s.ingress ≠ .idle) : s.Running ↔ ¬ s.Deaf := by
  have hp : s.pump ≠ .idle := mt hw.order hi
  unfold Running Deaf
  cases hpump : s.pump <;> cases hingress : s.ingress <;> simp_all

/-! ## One notification -/

/-- The task whose turn it is does not find that it has lagged, unless it has already read the notification or its
event. -/
def NotLaggingFor (n : Nat) (s : ShoutPipeline) : ShoutEvent → Prop
  | .pumpTurn => n ∈ (s.raw.unread ()).map Numbered.no → s.raw.WithinCapacity ()
  | .ingressTurn =>
    n ∈ (s.events.unread ()).map Numbered.no ++ (s.raw.unread ()).map Numbered.no → s.events.WithinCapacity ()
  | _ => True

instance (n : Nat) (s : ShoutPipeline) : ∀ e, Decidable (NotLaggingFor n s e)
  | .notify _ | .ensurePump | .subscribe => .isTrue trivial
  | .pumpTurn => inferInstanceAs (Decidable (_ → _))
  | .ingressTurn => inferInstanceAs (Decidable (_ → _))

/-- The notification is under way: a running loop has it still to read, or it has been forwarded. -/
structure UnderWay (n : Nat) (payload : Text) (event : ClusterEvent) (s : ShoutPipeline) : Prop where
  wf : s.Wf
  somewhere : ⟨n, payload⟩ ∈ s.raw.unread () ∧ s.ingress = .running ∨ ⟨n, event⟩ ∈ s.events.unread () ∨
    ⟨n, event.toMsg⟩ ∈ s.forwarded

/-- A notification under way stays so while the tasks that have to read it do not find that they have lagged. -/
theorem ShoutSteps.underWay {n : Nat} {payload : Text} {event : ClusterEvent}
    (hd : decodeGlobalShout parse payload = some event) {s t : ShoutPipeline} {e : ShoutEvent}
    (hst : ShoutSteps parse s e t) (h : UnderWay n payload event s) (hc : NotLaggingFor n s e) :
    UnderWay n payload event t := by
  have hwf := hst.wf h.wf
  obtain ⟨hw, hsome⟩ := h
  have hpump : ∀ {m}, m ∈ s.raw.unread () → s.pump = .running := fun hm =>
    hw.pump.1 (receiver_of_unread (List.ne_nil_of_mem hm))
  have hingress : ∀ {m}, m ∈ s.events.unread () → s.ingress = .running := fun hm =>
    hw.ingress.1 (receiver_of_unread (List.ne_nil_of_mem hm))
  cases hst with
  | notify other =>
    refine ⟨hwf, hsome.imp (fun hm => ⟨?_, hm.2⟩) id⟩
    show _ ∈ (s.raw.send _).2.unread ()
    rw [Broadcast.unread_send hw.rawPlaced (hw.pump.2 (hpump hm.1))]
    exact List.mem_append_left _ hm.1
  | ensurePump hp =>
    refine ⟨hwf, hsome.imp (fun hm => ?_) id⟩
    rw [hpump hm.1] at hp
    cases hp
  | subscribe hi hp =>
    rcases hsome with hm | hm | hm
    · rw [hm.2] at hi; cases hi
    · rw [hingress hm] at hi; cases hi
    · exact ⟨hwf, .inr (.inr hm)⟩
  | decoded other event' raw hp hr hd' =>
    have hu : s.ingress = .running → (s.events.send ⟨other.no, event'⟩).2.unread () = s.events.unread () ++
        [⟨other.no, event'⟩] :=
      fun hi => Broadcast.unread_send hw.eventsPlaced (hw.ingress.2 hi) _
    refine ⟨hwf, ?_⟩
    show _ ∈ raw.unread () ∧ _ ∨ _ ∈ (s.events.send _).2.unread () ∨ _
    rcases hsome with ⟨hm, hi⟩ | hm | hm
    · rw [hu hi]
      rw [hr.unread_eq] at hm
      rcases List.mem_cons.1 hm with heq | hm
      · -- the pump reads it and passes its event on
        subst heq
        rw [hd] at hd'
        cases hd'
        exact .inr (.inl (List.mem_append_right _ List.mem_cons_self))
      · exact .inl ⟨hm, hi⟩
    · rw [hu (hingress hm)]
      exact .inr (.inl (List.mem_append_left _ hm))
    · exact .inr (.inr hm)
  | warned other raw hp hr hd' =>
    refine ⟨hwf, hsome.imp (fun hm => ⟨?_, hm.2⟩) id⟩
    obtain ⟨hm, _⟩ := hm
    rw [hr.unread_eq] at hm
    rcases List.mem_cons.1 hm with heq | hm
    · subst heq
      rw [hd] at hd'
      cases hd'
    · exact hm
  | pumpEnds missed raw hp hr =>
    refine ⟨hwf, hsome.imp (fun hm => ?_) id⟩
    obtain ⟨_, hmsg⟩ := hr.withinCapacity.1 (hc (List.mem_map_of_mem hm.1))
    cases hmsg
  | forwarded other events hi hr =>
    refine ⟨hwf, hsome.imp (fun hm => ⟨hm.1, hi⟩) fun hm => ?_⟩
    rcases hm with hm | hm
    · rw [hr.unread_eq] at hm
      rcases List.mem_cons.1 hm with heq | hm
      · subst heq
        exact .inr (List.mem_append_right _ List.mem_cons_self)
      · exact .inl hm
    · exact .inr (List.mem_append_left _ hm)
  | ingressEnds missed events hi hr =>
    have hlags : n ∉ (s.events.unread ()).map Numbered.no ++ (s.raw.unread ()).map Numbered.no := by
      intro hm
      obtain ⟨_, hmsg⟩ := hr.withinCapacity.1 (hc hm)
      cases hmsg
    rcases hsome with hm | hm | hm
    · exact absurd (List.mem_append_right _ (List.mem_map_of_mem hm.1)) hlags
    · exact absurd (List.mem_append_left _ (List.mem_map_of_mem hm)) hlags
    · exact ⟨hwf, .inr (.inr hm)⟩

/-- A notification that is published while both loops are in progress is under way. -/
theorem underWay_notify {s : ShoutPipeline} {payload : Text} {event : ClusterEvent} (hw : s.Wf) (hr : s.Running) :
    UnderWay s.published payload event (s.notify payload) where
  wf := notify_wf hw payload
  somewhere := by
    refine .inl ⟨?_, hr.2⟩
    show _ ∈ (s.raw.send _).2.unread ()
    rw [Broadcast.unread_send hw.rawPlaced (hw.pump.2 hr.1)]
    exact List.mem_append_right _ List.mem_cons_self

/-- The notification is lost: it will not be forwarded. -/
structure Lost (n : Nat) (s : ShoutPipeline) : Prop where
  wf : s.Wf
  published : n < s.published
  unforwarded : n ∉ s.forwarded.map Numbered.no
  gone : n ∉ s.numbers ∨ s.ingress = .ended

theorem ShoutSteps.lost {n : Nat} {s t : ShoutPipeline} {e : ShoutEvent} (hst : ShoutSteps parse s e t) (h : Lost n s) :
    Lost n t := by
  have hwf := hst.wf h.wf
  obtain ⟨hw, hn, hfw, hgone⟩ := h
  have hpub : n < t.published := by
    rcases hst.numbers_sublist hw with ⟨hp, _⟩ | ⟨hp, _⟩ <;> omega
  rcases hgone with hgone | hended
  · have hout : n ∉ t.numbers := by
      intro hm
      rcases hst.numbers_sublist hw with ⟨_, hsub⟩ | ⟨_, hsub⟩
      · exact hgone (hsub.subset hm)
      · rcases List.mem_append.1 (hsub.subset hm) with hm | hm
        · exact hgone hm
        · exact absurd (List.mem_singleton.1 hm) hn.ne
    exact ⟨hwf, hpub, fun hm => hout (List.mem_append_left _ hm), .inl hout⟩
  · -- the loop that would forward it is over
    have hsame : t.ingress = .ended ∧ t.forwarded = s.forwarded := by
      cases hst with
      | subscribe hi hp => rw [hi] at hended; cases hended
      | forwarded other events hi hr => rw [hi] at hended; cases hended
      | ingressEnds missed events hi hr => exact ⟨rfl, rfl⟩
      | _ => exact ⟨hended, rfl⟩
    exact ⟨hwf, hpub, by rw [hsame.2]; exact hfw, .inr hsame.1⟩

/-- What is published once a loop has ended is lost. -/
theorem lost_notify {s : ShoutPipeline} (hw : s.Wf) (hd : s.Deaf) (payload : Text) :
    Lost s.published (s.notify payload) := by
  have hout : s.published ∉ s.numbers := fun hm => (hw.inOrder.2 _ hm).false
  refine ⟨notify_wf hw payload, Nat.lt_succ_self _, fun hm => hout (List.mem_append_left _ hm), ?_⟩
  refine hd.imp (fun hp => ?_) id
  have hget : s.raw.receivers.get? () = none := by
    rw [← Option.not_isSome_iff_eq_none, hw.pump, hp]
    decide
  have hraw : (s.raw.send ⟨s.published, payload⟩).2.unread () = s.raw.unread () := by
    rw [Broadcast.unread_of_get?_none hget, Broadcast.unread_of_get?_none]
    rw [Broadcast.send_receivers]
    exact hget
  show s.published ∉ s.forwarded.map Numbered.no ++ ((s.events.unread ()).map Numbered.no ++
    ((s.raw.send ⟨s.published, payload⟩).2.unread ()).map Numbered.no)
  rw [hraw]
  exact hout

/-- And so is what a task that finds it has lagged was still to read. -/
theorem ShoutSteps.lost_of_lagging {n : Nat} {s t : ShoutPipeline} {e : ShoutEvent} (hst : ShoutSteps parse s e t)
    (hw : s.Wf) (hc : ¬ NotLaggingFor n s e) : Lost n t := by
  have hwf := hst.wf hw
  obtain ⟨hpair, hlt⟩ := hw.inOrder
  unfold numbers at hpair hlt
  obtain ⟨-, hpair', hahead⟩ := List.pairwise_append.1 hpair
  obtain ⟨-, -, hahead'⟩ := List.pairwise_append.1 hpair'
  cases hst with
  | notify payload => exact absurd trivial hc
  | ensurePump hp => exact absurd trivial hc
  | subscribe hi hp => exact absurd trivial hc
  | decoded payload event raw hp hr hd => exact absurd (fun _ => hr.withinCapacity.2 ⟨_, rfl⟩) hc
  | warned payload raw hp hr hd => exact absurd (fun _ => hr.withinCapacity.2 ⟨_, rfl⟩) hc
  | forwarded event events hi hr => exact absurd (fun _ => hr.withinCapacity.2 ⟨_, rfl⟩) hc
  | pumpEnds missed raw hp hr =>
    have hn := (Classical.not_imp.1 hc).1
    have hfw : n ∉ s.forwarded.map Numbered.no := fun hm => (hahead n hm n (List.mem_append_right _ hn)).false
    refine ⟨hwf, hlt n (List.mem_append_right _ (List.mem_append_right _ hn)), hfw, .inl fun hm => ?_⟩
    rcases List.mem_append.1 hm with hm | hm
    · exact hfw hm
    · rcases List.mem_append.1 hm with hm | hm
      · exact (hahead' n hm n hn).false
      · rw [unread_drop] at hm
        cases hm
  | ingressEnds missed events hi hr =>
    have hn := (Classical.not_imp.1 hc).1
    exact ⟨hwf, hlt n (List.mem_append_right _ hn), fun hm => (hahead n hm n hn).false, .inr rfl⟩

/-- While it is under way a notification stays so to the end of a run exactly if no task found, before it had read it,
that it had lagged; else it is lost. -/
theorem underWay_or_lost {n : Nat} {payload : Text} {event : ClusterEvent}
    (hd : decodeGlobalShout parse payload = some event) {s t : ShoutPipeline} {es : List ShoutEvent}
    (h : UnderWay n payload event s) (hr : run (shoutStep parse) s es = some t) :
    Meets (shoutStep parse) (NotLaggingFor n) s es ∧ UnderWay n payload event t ∨
      ¬ Meets (shoutStep parse) (NotLaggingFor n) s es ∧ Lost n t := by
  refine meets_or_absorbed (fun _ _ _ hs ht => (shoutSteps_of_step ht).lost hs) (fun s e t hs ht => ?_) h hr
  have hst := shoutSteps_of_step ht
  by_cases hc : NotLaggingFor n s e
  · exact .inl ⟨hc, hst.underWay hd hs hc⟩
  · exact .inr ⟨hc, hst.lost_of_lagging hs.wf hc⟩

/-! ## The tasks get there -/

theorem ShoutSteps.capacity_eq {s t : ShoutPipeline} {e : ShoutEvent} (hst : ShoutSteps parse s e t) :
    t.events.capacity = s.events.capacity := by
  cases hst with
  | decoded other event raw hp hr hd => exact Broadcast.send_capacity ..
  | forwarded other events hi hr => exact hr.capacity_eq
  | ingressEnds missed events hi hr => exact hr.capacity_eq
  | _ => rfl

/-- What the tasks still have to do. -/
def remaining (s : ShoutPipeline) : Nat := 2 * (s.raw.unread ()).length + (s.events.unread ()).length

theorem ingressTurn_enabled {s : ShoutPipeline} (hw : s.Wf) (he : s.events.unread () ≠ []) :
    ∃ t, shoutStep parse s .ingressTurn = some t := by
  have hi : s.ingress = .running := hw.ingress.1 (receiver_of_unread he)
  simp only [shoutStep, if_pos hi]
  split
  · rename_i hr
    exact absurd (Broadcast.recv_eq_none_iff.1 hr) he
  · exact ⟨_, rfl⟩
  · exact ⟨_, rfl⟩

theorem pumpTurn_enabled {s : ShoutPipeline} (hw : s.Wf) (hr : s.raw.unread () ≠ []) :
    ∃ t, shoutStep parse s .pumpTurn = some t := by
  have hp : s.pump = .running := hw.pump.1 (receiver_of_unread hr)
  simp only [shoutStep, if_pos hp]
  split
  · rename_i hrecv
    exact absurd (Broadcast.recv_eq_none_iff.1 hrecv) hr
  · split <;> exact ⟨_, rfl⟩
  · exact ⟨_, rfl⟩

/-- A turn of the ingress task takes something off what remains and overwrites nothing. -/
theorem ShoutSteps.ingressTurn_spec {s t : ShoutPipeline} (hst : ShoutSteps parse s .ingressTurn t)
    (he : s.events.unread () ≠ []) : remaining t < remaining s ∧ (s.WithinCapacity → t.WithinCapacity) := by
  have hpos := List.length_pos_iff.2 he
  cases hst with
  | forwarded event events hi hr =>
    have hlen := congrArg List.length hr.unread_eq
    rw [List.length_cons] at hlen
    refine ⟨?_, fun hc => ⟨hc.1, ?_⟩⟩
    · unfold remaining
      dsimp only
      omega
    · have hle : (s.events.unread ()).length ≤ s.events.capacity := hc.2
      show (events.unread ()).length ≤ events.capacity
      rw [hr.capacity_eq]
      omega
  | ingressEnds missed events hi hr =>
    refine ⟨?_, fun hc => ⟨hc.1, ?_⟩⟩
    · unfold remaining
      dsimp only
      rw [unread_drop, List.length_nil]
      omega
    · show ((events.drop ()).unread ()).length ≤ _
      rw [unread_drop]
      exact Nat.zero_le _

/-- So does a turn of the pump, where the ingress task has nothing to read. -/
theorem ShoutSteps.pumpTurn_spec {s t : ShoutPipeline} (hst : ShoutSteps parse s .pumpTurn t) (hw : s.Wf)
    (hcap : 0 < s.events.capacity) (hr : s.raw.unread () ≠ []) (he : s.events.unread () = []) :
    remaining t < remaining s ∧ (s.WithinCapacity → t.WithinCapacity) := by
  have hpos := List.length_pos_iff.2 hr
  -- a message less in the first channel
  have hraw : ∀ {payload : Numbered Text} {raw : Broadcast Unit (Numbered Text)},
    s.raw.Receives () (.message payload) raw →
      (s.raw.unread ()).length = (raw.unread ()).length + 1 ∧
      (s.raw.WithinCapacity () → raw.WithinCapacity ()) := by
    intro payload raw hrec
    have hlen := congrArg List.length hrec.unread_eq
    rw [List.length_cons] at hlen
    refine ⟨hlen, fun hc => ?_⟩
    have hle : (s.raw.unread ()).length ≤ s.raw.capacity := hc
    show (raw.unread ()).length ≤ raw.capacity
    rw [hrec.capacity_eq]
    omega
  cases hst with
  | decoded payload event raw hp hrec hd =>
    obtain ⟨hlen, hkeep⟩ := hraw hrec
    -- and at most one more in the second
    have hone : ((s.events.send ⟨payload.no, event⟩).2.unread ()).length ≤ 1 := by
      have hsub := unread_send_sublist hw.eventsPlaced ⟨payload.no, event⟩
      rw [he] at hsub
      exact hsub.length_le
    refine ⟨?_, fun hc => ⟨hkeep hc.1, ?_⟩⟩
    · unfold remaining
      dsimp only
      omega
    · show ((s.events.send _).2.unread ()).length ≤ (s.events.send _).2.capacity
      rw [Broadcast.send_capacity]
      omega
  | warned payload raw hp hrec hd =>
    obtain ⟨hlen, hkeep⟩ := hraw hrec
    refine ⟨?_, fun hc => ⟨hkeep hc.1, hc.2⟩⟩
    unfold remaining
    dsimp only
    omega
  | pumpEnds missed raw hp hrec =>
    refine ⟨?_, fun hc => ⟨?_, hc.2⟩⟩
    · unfold remaining
      dsimp only
      rw [unread_drop, List.length_nil]
      omega
    · show ((raw.drop ()).unread ()).length ≤ _
      rw [unread_drop]
      exact Nat.zero_le _

/-- From every state turns of the two tasks lead to one in which all is read, and overwrite nothing on the way. -/
theorem exists_quiet (parse : PayloadParser) (s : ShoutPipeline) (hw : s.Wf) (hcap : 0 < s.events.capacity) :
    ∃ es t, (∀ e ∈ es, e = .pumpTurn ∨ e = .ingressTurn) ∧ run (shoutStep parse) s es = some t ∧ t.Quiet ∧
      (s.WithinCapacity → Along (shoutStep parse) WithinCapacity s es) := by
  by_cases hq : s.Quiet
  · exact ⟨[], s, by simp, rfl, hq, fun h => h⟩
  · have hturn : ∃ e t, (e = .pumpTurn ∨ e = .ingressTurn) ∧ shoutStep parse s e = some t ∧ remaining t < remaining s ∧
        (s.WithinCapacity → t.WithinCapacity) := by
      by_cases he : s.events.unread () = []
      · have hr : s.raw.unread () ≠ [] := fun hr => hq ⟨hr, he⟩
        obtain ⟨t, ht⟩ : ∃ t, shoutStep parse s .pumpTurn = some t := pumpTurn_enabled hw hr
        exact ⟨.pumpTurn, t, .inl rfl, ht, (shoutSteps_of_step ht).pumpTurn_spec hw hcap hr he⟩
      · obtain ⟨t, ht⟩ : ∃ t, shoutStep parse s .ingressTurn = some t := ingressTurn_enabled hw he
        exact ⟨.ingressTurn, t, .inr rfl, ht, (shoutSteps_of_step ht).ingressTurn_spec he⟩
    obtain ⟨e, t, he, ht, hless, hkeep⟩ := hturn
    have hst := shoutSteps_of_step ht
    obtain ⟨es, u, hes, hrun, hquiet, hal⟩ := exists_quiet parse t (hst.wf hw) (by rw [hst.capacity_eq]; exact hcap)
    refine ⟨e :: es, u, ?_, (run_cons_eq_some _).2 ⟨t, ht, hrun⟩, hquiet, fun hc => ⟨hc, fun t' ht' => ?_⟩⟩
    · intro e' he'
      rcases List.mem_cons.1 he' with rfl | he'
      · exact he
      · exact hes e' he'
    · rw [ht] at ht'
      cases ht'
      exact hal (hkeep hc)
termination_by remaining s

/-! ## A burst -/

/-- While no task has a turn, notifications pile up before the pump. -/
theorem exists_burst (parse : PayloadParser) (payload : Text) : ∀ (n : Nat) {s : ShoutPipeline}, s.Wf →
    s.pump = .running →
    ∃ t, run (shoutStep parse) s (List.replicate n (.notify payload)) = some t ∧ t.pump = .running ∧
      t.events = s.events ∧
      t.forwarded = s.forwarded ∧ t.raw.capacity = s.raw.capacity ∧
      (t.raw.unread ()).length = (s.raw.unread ()).length + n
  | 0, s, _, hp => ⟨s, rfl, hp, rfl, rfl, rfl, rfl⟩
  | n + 1, s, hw, hp => by
    have hst : ShoutSteps parse s (.notify payload) (s.notify payload) := .notify payload
    obtain ⟨t, hrun, hpt, he, hf, hcap, hlen⟩ := exists_burst parse payload n (hst.wf hw) hp
    refine ⟨t, (run_cons_eq_some _).2 ⟨_, rfl, hrun⟩, hpt, he, hf, ?_, ?_⟩
    · rw [hcap]
      exact Broadcast.send_capacity ..
    · have hone : ((s.notify payload).raw.unread ()).length = (s.raw.unread ()).length + 1 := by
        show ((s.raw.send _).2.unread ()).length = _
        rw [Broadcast.unread_send hw.rawPlaced (hw.pump.2 hp), List.length_append]
        rfl
      omega

/-- The turn of a pump that has fallen too far behind. -/
theorem pumpTurn_of_behind {s : ShoutPipeline} (hp : s.pump = .running) (hc : ¬ s.raw.WithinCapacity ()) :
    ∃ raw : Broadcast Unit (Numbered Text), shoutStep parse s .pumpTurn =
      some { s with raw := raw.drop (), pump := .ended } := by
  simp only [shoutStep, if_pos hp]
  cases hrecv : s.raw.recv () with
  | none =>
    have hnil := Broadcast.recv_eq_none_iff.1 hrecv
    unfold Broadcast.WithinCapacity at hc
    rw [hnil] at hc
    exact absurd (Nat.zero_le _) hc
  | some answer =>
    obtain ⟨r, raw⟩ := answer
    have hrec := Broadcast.receives_of_recv hrecv
    cases r with
    | message payload => exact absurd (hrec.withinCapacity.2 ⟨payload, rfl⟩) hc
    | lagged missed => exact ⟨raw, rfl⟩

end Invariants

/-! ## Alice -/

def alicePayload : Text := "\x7b\"from_player_name\":\"alice\",\"from_empire\":2,\"message\":\"ping\"\x7d".toList

def aliceShout : ClusterEvent := .globalShout ⟨"alice".toList, .yellow, "ping".toList⟩

/-- What the parser makes of the payload. -/
def aliceParser : PayloadParser := fun payload => if payload =
    alicePayload then some ⟨"alice".toList, 2, "ping".toList⟩ else none

/-- The tasks have subscribed. -/
def subscribed : ShoutPipeline where
  published := 0
  raw := (Broadcast.channel broadcastCapacity).subscribe ()
  events := (Broadcast.channel broadcastCapacity).subscribe ()
  pump := .running
  ingress := .running
  forwarded := []

theorem run_subscribed (parse : PayloadParser) : run (shoutStep parse) start
    [.ensurePump, .subscribe] = some subscribed := rfl

/-- And her shout has come through. -/
def afterAlice : ShoutPipeline where
  published := 1
  raw := ⟨broadcastCapacity, [⟨0, alicePayload⟩], OrdMap.empty.insert () 1⟩
  events := ⟨broadcastCapacity, [⟨0, aliceShout⟩], OrdMap.empty.insert () 1⟩
  pump := .running
  ingress := .running
  forwarded := [⟨0, aliceShout.toMsg⟩]

theorem run_alice : run (shoutStep aliceParser) (subscribed.notify alicePayload)
    [.pumpTurn, .ingressTurn] = some afterAlice := rfl

/-! ## The pipeline -/

/-- A notification that is published after the ingress task has subscribed has been forwarded, when all tasks have read
what there is, if and only if no task found in a turn that it had lagged: in no turn before it was published, and in
none after that in which it had the notification or its event still to read. -/
theorem shout_forwarded_iff (parse : PayloadParser) {pre post : List ShoutEvent} {s t : ShoutPipeline} {payload : Text}
    {event : ClusterEvent} (hpre : run (shoutStep parse) start pre = some s) (hsub : .subscribe ∈ pre)
    (hd : decodeGlobalShout parse payload = some event) (hpost : run (shoutStep parse) (s.notify payload) post = some t)
    (hq : t.Quiet) :
    ⟨s.published, event.toMsg⟩ ∈ t.forwarded ↔ Meets (shoutStep parse) NotLagging start pre ∧
      Meets (shoutStep parse) (NotLaggingFor s.published) (s.notify payload) post := by
  have hw := run_wf hpre
  have hi := run_ingress_ne_idle hpre (.inr hsub)
  rw [meets_notLagging_iff hpre]
  have hlost : Lost s.published t → ⟨s.published, event.toMsg⟩ ∉ t.forwarded := fun hl hf =>
    hl.unforwarded (List.mem_map_of_mem hf)
  by_cases hdeaf : s.Deaf
  · have hl : Lost s.published t :=
      run_inv (fun _ _ _ hs ht => (shoutSteps_of_step ht).lost hs) (lost_notify hw hdeaf payload) hpost
    exact iff_of_false (hlost hl) fun h => h.1 hdeaf
  · have hstart : UnderWay s.published payload event (s.notify payload) :=
      underWay_notify hw ((running_iff_not_deaf hw hi).2 hdeaf)
    rcases underWay_or_lost hd hstart hpost with ⟨hm, hway⟩ | ⟨hm, hl⟩
    · refine iff_of_true ?_ ⟨hdeaf, hm⟩
      rcases hway.somewhere with hraw | hev | hf
      · rw [hq.1] at hraw; cases hraw.1
      · rw [hq.2] at hev; cases hev
      · exact hf
    · exact iff_of_false (hlost hl) fun h => hm h.2

theorem shout_forwarded_iff_alice :
    ⟨0, aliceShout.toMsg⟩ ∈ afterAlice.forwarded ↔ Meets (shoutStep aliceParser) NotLagging start
      [.ensurePump, .subscribe] ∧
      Meets (shoutStep aliceParser) (NotLaggingFor 0) (subscribed.notify alicePayload) [.pumpTurn, .ingressTurn] :=
  shout_forwarded_iff aliceParser (run_subscribed _) (by decide)
    (by decide +kernel : decodeGlobalShout aliceParser alicePayload = _)
    run_alice (by decide +kernel)

/-- A burst of 1025 notifications before the pump has its turn, and all is quiet again: the next shout is not over any
capacity and is not forwarded. -/
theorem shout_lost_after_burst :
    ∃ s, run (shoutStep aliceParser) start
        ([.ensurePump, .subscribe] ++ List.replicate 1025 (.notify alicePayload) ++ [.pumpTurn]) = some s ∧
      decodeGlobalShout aliceParser alicePayload = some aliceShout ∧ s.Quiet ∧ (s.notify alicePayload).WithinCapacity ∧
      (s.notify alicePayload).Quiet ∧ ⟨s.published, aliceShout.toMsg⟩ ∉ (s.notify alicePayload).forwarded := by
  have hw : subscribed.Wf := run_wf (run_subscribed aliceParser)
  obtain ⟨t, hburst, hp, he, hf, hcap, hlen⟩ := exists_burst aliceParser alicePayload 1025 hw rfl
  have hbehind : ¬ t.raw.WithinCapacity () := by
    unfold Broadcast.WithinCapacity
    rw [hcap, hlen]
    decide
  obtain ⟨raw, hturn⟩ : ∃ raw : Broadcast Unit (Numbered Text), shoutStep aliceParser t .pumpTurn =
      some { t with raw := raw.drop (), pump := .ended } := pumpTurn_of_behind hp hbehind
  have hlast : run (shoutStep aliceParser) t [.pumpTurn] = some { t with raw := raw.drop (), pump := .ended } := by
    rw [run_cons, hturn]
    rfl
  have hrun := (run_append_eq_some (shoutStep aliceParser)).2
    ⟨t, (run_append_eq_some _).2 ⟨subscribed, run_subscribed _, hburst⟩, hlast⟩
  have hnone : ∀ i, (raw.drop ()).receivers.get? i = none := fun _ => by simp
  have hsend : ∀ x, ((raw.drop ()).send x).2 = raw.drop () := fun x => by rw [Broadcast.send_of_no_receiver hnone]
  have hevents : t.events.unread () = [] := by
    rw [he]
    decide
  refine ⟨_, hrun, by decide +kernel, ⟨unread_drop, hevents⟩, ⟨?_, ?_⟩, ⟨?_, hevents⟩, ?_⟩
  · show (((raw.drop ()).send _).2.unread ()).length ≤ _
    rw [hsend, unread_drop]
    exact Nat.zero_le _
  · show (t.events.unread ()).length ≤ _
    rw [hevents]
    exact Nat.zero_le _
  · show ((raw.drop ()).send _).2.unread () = []
    rw [hsend, unread_drop]
  · show _ ∉ t.forwarded
    rw [hf]
    exact List.not_mem_nil

end Zohar.Game
