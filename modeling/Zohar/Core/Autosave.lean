/-
What becomes of an autosave after the map has handed it over. The map clears the player's dirty flag as soon as the
channel takes the snapshot, and from then on the snapshot lives in the worker alone, which coalesces it, gives its
place to a flush or an exit, or drops it. A history is kept beside the system: the number of the last snapshot that
an autosave of the player handed over, the numbers of the snapshots that reached the rows, and whether what is pending
or running in the player's lane has taken the place of an autosave that was not written.
-/
import Zohar.Core.Handoff

namespace Zohar.Core

open Zohar.Lib Zohar.Db Zohar.Persistence Zohar.Stats Zohar.Sim

/-! ## The history -/

/-- The player is on the map and its dirty flag is clear. -/
def System.clean (s : System) (id : PlayerId) : Bool := (s.players id).any fun p => !p.dirty

def isAutosave : DispatchKind → Bool
  | .save save => save.urgency = .autosave
  | .commitPlayerExit _ => false

def failed (task : Task) : Bool :=
  match task.result with
  | some (.error _) => true
  | _ => false

structure Tracked where
  sys : System
  /-- The snapshot that the last accepted autosave of the player handed over since the player entered the map. -/
  handed : PlayerId → Option Nat
  written : PlayerId → List Nat
  /-- The pending, or the running, operation has taken the place of an autosave. -/
  pendingCarries : PlayerId → Bool
  flightCarries : PlayerId → Bool

namespace Tracked

def start (db : GameDb) : Tracked := ⟨.start db, fun _ => none, fun _ => [], fun _ => false, fun _ => false⟩

/-- Whether what is pending after a request has taken the place of an autosave. -/
def carriesRecv (lane : Lane) (carries : Bool) : PlayerPersistenceRequest → Bool
  | .saveSnapshot save =>
    if lane.pendingExit.isSome then carries
    else lane.pendingSave.any fun pending => pending.urgency ≠ save.urgency || carries
  | .commitPlayerExit _ =>
    (lane.pendingSave.any fun pending => pending.urgency = .autosave || carries) || (lane.pendingExit.isSome && carries)

/-- A failed autosave gives way to whatever is pending. -/
def carriesJoin (lane : Lane) (carries : Bool) (task : Task) : Bool :=
  carries || (isAutosave task.op.kind && failed task &&
    (lane.pendingExit.isSome || lane.pendingSave.any fun pending => pending.urgency = .flushNow))

def afterTask (t : Tracked) (s : System) : TaskEvent → Tracked
  | .recv =>
    match t.sys.queue with
    | [] => { t with sys := s }
    | request :: _ =>
      { t with
        sys := s
        pendingCarries := Function.update t.pendingCarries request.playerId
          (carriesRecv (t.sys.worker.lane request.playerId) (t.pendingCarries request.playerId) request) }
  | .dispatch _ _ =>
    let starts := fun id => !(t.sys.worker.lane id).inFlight && (s.worker.lane id).inFlight
    { t with
      sys := s
      pendingCarries := fun id => if starts id then false else t.pendingCarries id
      flightCarries := fun id => if starts id then t.pendingCarries id else t.flightCarries id }
  | .exec i now fault exitFault =>
    match t.sys.worker.inFlight[i]? with
    | none => { t with sys := s }
    | some task =>
      if runOpWrites t.sys.db task.op now fault exitFault then
        { t with
          sys := s
          written := Function.update t.written task.op.playerId
            (task.op.kind.snapshot.stamp :: t.written task.op.playerId) }
      else { t with sys := s }
  | .joinNext i _ =>
    match t.sys.worker.inFlight[i]? with
    | none => { t with sys := s }
    | some task =>
      { t with
        sys := s
        pendingCarries := Function.update t.pendingCarries task.op.playerId
          (carriesJoin (t.sys.worker.lane task.op.playerId) (t.pendingCarries task.op.playerId) task) }

end Tracked

def trackedStep [GrowthRng] (cfg : Config) (t : Tracked) (ev : Event) : Option Tracked :=
  (systemStep cfg t.sys ev).map fun s =>
    match ev with
    | .map (.enter _ _ b _ _ _) => { t with sys := s, handed := Function.update t.handed b.playerId none }
    | .map (.autosave id _ _) =>
      if t.sys.queue.length < s.queue.length then
        { t with sys := s, handed := Function.update t.handed id (some t.sys.nextStamp) }
      else { t with sys := s }
    | .task ev => t.afterTask s ev
    | _ => { t with sys := s }

/-- The history does not steer the system: every run of the system has one, and only one. -/
theorem run_trackedStep [GrowthRng] (cfg : Config) (es : List Event) (t : Tracked) :
    (run (trackedStep cfg) t es).map Tracked.sys = run (systemStep cfg) t.sys es := by
  refine run_map (fun t ev => ?_) es t
  have hsys : ∀ (s : System) (ev : TaskEvent), (t.afterTask s ev).sys = s := by
    intro s ev
    cases ev <;> simp only [Tracked.afterTask] <;> repeat' split
    all_goals rfl
  rw [trackedStep, Option.map_map]
  refine (Option.map_congr fun s _ => ?_).trans Option.map_id'
  simp only [Function.comp_apply]
  split
  · rfl
  · split <;> rfl
  · exact hsys s _
  · rfl

namespace Tracked

/-- The snapshots of the player that are queued, pending, in flight or written. -/
def keptStamps (t : Tracked) (id : PlayerId) : List Nat :=
  ((t.sys.queue.filter fun r => r.playerId = id).map fun r => r.snapshot.stamp) ++
    (t.sys.worker.lane id).pendingSave.toList.map (fun save => save.snapshot.stamp) ++
    (t.sys.worker.lane id).pendingExit.toList.map (fun exit => exit.snapshot.stamp) ++
    (t.sys.worker.tasks id).map (fun task => task.op.kind.snapshot.stamp) ++ t.written id

/-- The snapshot or a newer one of the player is pending, in flight or has been written. -/
def Kept (t : Tracked) (id : PlayerId) (n : Nat) : Prop := ∃ m ∈ t.keptStamps id, n ≤ m

instance (t : Tracked) (id : PlayerId) (n : Nat) : Decidable (t.Kept id n) := inferInstanceAs (Decidable (∃ m ∈ _, _))

/-- Nothing but the worker knows about the player's last autosave. -/
def exposed (t : Tracked) (id : PlayerId) : Bool := t.sys.clean id && (t.handed id).isSome

end Tracked

/-! ## When a step keeps an autosave -/

/-- The request is not an autosave behind a pending exit, and it does not put an older snapshot in the place of an
autosave, or of what has taken an autosave's place. -/
def RecvKeeps (lane : Lane) (carries : Bool) : PlayerPersistenceRequest → Prop
  | .saveSnapshot save =>
    (save.urgency = .autosave → lane.pendingExit = none) ∧
      ∀ pending ∈ lane.pendingSave, pending.urgency = .autosave ∨ carries = true →
        pending.snapshot.stamp ≤ save.snapshot.stamp
  | .commitPlayerExit exit =>
    (∀ pending ∈ lane.pendingSave, pending.urgency = .autosave ∨ carries = true →
      pending.snapshot.stamp ≤ exit.snapshot.stamp) ∧
      ∀ pending ∈ lane.pendingExit, carries = true → pending.snapshot.stamp ≤ exit.snapshot.stamp

instance (lane : Lane) (carries : Bool) (request : PlayerPersistenceRequest) :
    Decidable (RecvKeeps lane carries request) :=
  match request with
  | .saveSnapshot _ => inferInstanceAs (Decidable (_ ∧ _))
  | .commitPlayerExit _ => inferInstanceAs (Decidable (_ ∧ _))

/-- A failed autosave gives way to no older snapshot, and what has taken an autosave's place does not fail. -/
def JoinKeeps (lane : Lane) (carries : Bool) (task : Task) : Prop :=
  if isAutosave task.op.kind then
    (∀ pending ∈ lane.pendingSave, task.op.kind.snapshot.stamp ≤ pending.snapshot.stamp) ∧
      ∀ pending ∈ lane.pendingExit, task.op.kind.snapshot.stamp ≤ pending.snapshot.stamp
  else carries = false

instance (lane : Lane) (carries : Bool) (task : Task) : Decidable (JoinKeeps lane carries task) :=
  inferInstanceAs (Decidable (ite _ _ _))

def KeepsAutosave (t : Tracked) : Event → Prop
  | .task .recv =>
    ∀ request ∈ t.sys.queue.head?, t.exposed request.playerId →
      RecvKeeps (t.sys.worker.lane request.playerId) (t.pendingCarries request.playerId) request
  | .task (.exec i _ _ _) =>
    ∀ task ∈ t.sys.worker.inFlight[i]?, t.exposed task.op.playerId → isAutosave task.op.kind →
      RowsCurrent t.sys.db task.op.kind.snapshot.snapshot
  | .task (.joinNext i _) =>
    ∀ task ∈ t.sys.worker.inFlight[i]?, t.exposed task.op.playerId → failed task →
      JoinKeeps (t.sys.worker.lane task.op.playerId) (t.flightCarries task.op.playerId) task
  | _ => True

instance (t : Tracked) (ev : Event) : Decidable (KeepsAutosave t ev) :=
  match ev with
  | .task .recv => inferInstanceAs (Decidable (∀ _ ∈ _, _ → _))
  | .task (.exec _ _ _ _) => inferInstanceAs (Decidable (∀ _ ∈ _, _ → _ → _))
  | .task (.joinNext _ _) => inferInstanceAs (Decidable (∀ _ ∈ _, _ → _ → _))
  | .task (.dispatch _ _) => .isTrue trivial
  | .map _ => .isTrue trivial
  | .conn _ _ => .isTrue trivial

/-! ## Who clears a dirty flag -/

section
variable {cfg : Config} {s s' : System}

/-- The flag of a player that a step replaces. -/
theorem System.clean_of_update {p q : MapPlayer} {id id' : PlayerId} (h : s.players id = some p) (hc : s'.clean id')
    (hs : s'.players = Function.update s.players id (some q)) (hd : q.dirty = false → p.dirty = false) :
    s.clean id' := by
  simp only [System.clean, hs] at hc ⊢
  by_cases hid : id' = id
  · subst hid
    rw [Function.update_self] at hc
    simpa [h] using hd (by simpa using hc)
  · rwa [Function.update_of_ne hid] at hc

theorem System.clean_of_ne {p : Option MapPlayer} {id id' : PlayerId} (hs : s'.players = Function.update s.players id p)
    (hid : id' ≠ id) : s'.clean id' = s.clean id' := by
  simp only [System.clean, hs, Function.update_of_ne hid]

/-- An accepted autosave puts the snapshot into the channel; every other one leaves the flags alone. -/
theorem enqueueDueAutosave_cases {id : PlayerId} {now : Nat} {pos : LocalPos}
    (h : enqueueDueAutosave cfg s id now pos = some s') :
    (s'.queue = s.queue ∧ ∀ id', s'.clean id' → s.clean id') ∨
      ∃ snapshot : PlayerSnapshot, snapshot.playerId = id ∧
        s'.queue = s.queue ++ [.saveSnapshot ⟨⟨s.nextStamp, snapshot⟩, .autosave, none⟩] ∧
        ∀ id', id' ≠ id → s'.clean id' → s.clean id' := by
  obtain ⟨p, hp, h⟩ := Option.bind_eq_some_iff.1 h
  split at h
  · cases h
  · split at h
    · cases h
      exact .inl ⟨rfl, fun id' hc => System.clean_of_update hp hc rfl fun hd => hd⟩
    · split at h
      · cases h
        exact .inl ⟨rfl, fun id' hc => System.clean_of_update hp hc rfl fun hd => hd⟩
      · cases h
        exact .inr ⟨_, rfl, rfl, fun id' hid hc => (System.clean_of_ne rfl hid).symm.trans hc⟩

theorem clean_of_mapStep [GrowthRng] {ev : MapEvent} (h : mapStep cfg s ev = some s') (hne : ev.entering = none)
    (ha : ∀ id now pos, ev ≠ .autosave id now pos) {id : PlayerId} (hc : s'.clean id) : s.clean id := by
  cases ev with
  | enter k username b epoch playtime now => cases hne
  | reward id' reward =>
    obtain ⟨p, hp, h⟩ := Option.bind_eq_some_iff.1 h
    obtain ⟨r, _, rfl⟩ := Option.map_eq_some_iff.1 h
    split at hc
    · exact System.clean_of_update hp hc rfl (by rintro ⟨⟩)
    · exact System.clean_of_update hp hc rfl fun hd => hd
  | coreStat id' stat delta now pos =>
    obtain ⟨p, hp, h⟩ := Option.bind_eq_some_iff.1 h
    split at h
    · cases h
    · split at h
      · cases h
      · cases h
        exact hc
      · split at h
        · cases h
          exact hc
        · obtain ⟨r, _, rfl⟩ := Option.map_eq_some_iff.1 h
          split at hc
          all_goals exact System.clean_of_update hp hc rfl fun hd => hd
  | finalizePendingSave id' =>
    obtain ⟨p, hp, h⟩ := Option.bind_eq_some_iff.1 h
    obtain ⟨reply, _, h⟩ := Option.bind_eq_some_iff.1 h
    split at h
    · cases h
    · cases h
      exact System.clean_of_update hp hc rfl fun hd => hd
    · cases h
      exact System.clean_of_update hp hc rfl (by rintro ⟨⟩)
  | markDirty id' =>
    obtain ⟨p, hp, rfl⟩ := Option.map_eq_some_iff.1 h
    exact System.clean_of_update hp hc rfl (by rintro ⟨⟩)
  | autosave id' now pos => exact absurd rfl (ha id' now pos)

theorem clean_of_enter [GrowthRng] {k : Connection} {username : String} {b : PlayerGameplayBootstrap}
    {epoch : PlayerRuntimeEpoch} {playtime : PlayerPlaytime} {now : Nat}
    (h : enterPlayer cfg s k username b epoch playtime now = some s') {id : PlayerId} (hid : id ≠ b.playerId) :
    s'.clean id = s.clean id := by
  obtain ⟨⟨p, hp, _⟩, _⟩ := enterPlayer_spec h
  exact System.clean_of_ne hp hid

theorem ConnFrame.clean {k : Connection} {c : InGame} (h : ConnFrame s s' k c) {id : PlayerId} (hc : s'.clean id) :
    s.clean id := by
  rcases h.players id with hp | ⟨_, hp⟩
  · simpa only [System.clean, hp] using hc
  · simp [System.clean, hp] at hc

end

/-! ## Where an autosave is -/

/-- The operation of the task is an autosave, or has taken the place of one, and has not been reported done unless it
reached the rows. -/
structure Runs (carries : Bool) (written : List Nat) (n : Nat) (task : Task) : Prop where
  carrier : isAutosave task.op.kind = true ∨ carries = true
  newer : n ≤ task.op.kind.snapshot.stamp
  done : task.result = some (.ok ()) → task.op.kind.snapshot.stamp ∈ written

/-- The snapshot, or a newer one that has taken its place, on its way through the lane of its player. -/
inductive InLane (l : Lane) (ts : List Task) (pending flight : Bool) (written : List Nat) (n : Nat) : Prop
  | save {save : PendingSave} (h : l.pendingSave = some save) (hc : save.urgency = .autosave ∨ pending = true)
      (hn : n ≤ save.snapshot.stamp)
  | exit {exit : PendingExit} (h : l.pendingExit = some exit) (hc : pending = true) (hn : n ≤ exit.snapshot.stamp)
  | task {task : Task} (h : task ∈ ts) (hr : Runs flight written n task)
  | written {m : Nat} (h : m ∈ written) (hn : n ≤ m)

section
variable {l l' : Lane} {ts ts' : List Task} {pending flight : Bool} {written : List Nat} {n : Nat}

theorem InLane.mono {pending' : Bool} {written' : List Nat} (h : InLane l ts pending flight written n)
    (hp : pending = true → pending' = true) (hsub : written ⊆ written') : InLane l ts pending' flight written' n := by
  cases h with
  | save hs hc hn => exact .save hs (hc.imp_right hp) hn
  | exit he hc hn => exact .exit he (hp hc) hn
  | task hmem hr => exact .task hmem ⟨hr.carrier, hr.newer, fun hok => hsub (hr.done hok)⟩
  | written hm hn => exact .written (hsub hm) hn

/-- A received request takes the carrier's place only as a newer carrier. -/
theorem InLane.recv_save {save : PendingSave} (h : InLane l ts pending flight written n) (hok : LaneOk l ts)
    (hk : RecvKeeps l pending (.saveSnapshot save)) :
    InLane (l.queueSave save).1 ts (Tracked.carriesRecv l pending (.saveSnapshot save)) flight written n := by
  cases h with
  | save hs hc hn =>
    have he : l.pendingExit.isSome ≠ true := by
      intro he
      rw [hok.exit he] at hs
      cases hs
    have hle := hk.2 _ hs hc
    simp only [Lane.queueSave, Tracked.carriesRecv, if_neg he, hs]
    split
    · rename_i hu
      split
      all_goals
        refine .save rfl (.inr ?_) (le_trans hn hle)
        rcases hc with hc | hc <;> simp [hc, hu]
    · rename_i hu
      refine .save rfl ?_ (le_trans hn hle)
      rcases hc with hc | hc
      · exact .inl hc
      · exact .inr (by simp [hc])
  | exit he hc hn =>
    have hex : l.pendingExit.isSome = true := by rw [he]; rfl
    simp only [Lane.queueSave, Tracked.carriesRecv, if_pos hex]
    exact .exit he hc hn
  | task hmem hr => exact .task hmem hr
  | written hm hn => exact .written hm hn

theorem InLane.recv_exit {exit : PendingExit} (h : InLane l ts pending flight written n)
    (hk : RecvKeeps l pending (.commitPlayerExit exit)) :
    InLane (l.queueExit exit).1 ts (Tracked.carriesRecv l pending (.commitPlayerExit exit)) flight written n := by
  cases h with
  | save hs hc hn =>
    refine .exit rfl ?_ (le_trans hn (hk.1 _ hs hc))
    rcases hc with hc | hc <;> simp [Tracked.carriesRecv, hs, hc]
  | exit he hc hn =>
    refine .exit rfl ?_ (le_trans hn (hk.2 _ he hc))
    simp [Tracked.carriesRecv, he, hc]
  | task hmem hr => exact .task hmem hr
  | written hm hn => exact .written hm hn

/-- An autosave that no exit turns away is pending as soon as it is received. -/
theorem InLane.arrive {save : PendingSave} (hu : save.urgency = .autosave) (hn : n ≤ save.snapshot.stamp)
    (hk : RecvKeeps l pending (.saveSnapshot save)) :
    InLane (l.queueSave save).1 ts (Tracked.carriesRecv l pending (.saveSnapshot save)) flight written n := by
  have he := hk.1 hu
  simp only [Lane.queueSave, Tracked.carriesRecv, he, hu, Option.isSome_none, if_neg Bool.false_ne_true]
  split
  · rename_i held hheld
    refine .save rfl ?_ hn
    rcases held with ⟨_, _ | _, _⟩
    · exact .inl rfl
    · exact .inr (by simp [hheld])
  · exact .save rfl (.inl hu) hn

/-- What is dispatched takes along what it stands for. -/
theorem InLane.dispatched {op : DispatchOp} (h : InLane l ts pending flight written n) (hok : LaneOk l ts)
    (hidle : l.inFlight = false) (hnext : l.nextDispatch = some (op, l')) :
    InLane { l' with inFlight := true } (ts ++ [⟨op, none⟩]) false pending written n := by
  have hstart : ∀ {kind : DispatchKind}, op.kind = kind → isAutosave kind = true ∨ pending = true →
      n ≤ kind.snapshot.stamp → InLane { l' with inFlight := true } (ts ++ [⟨op, none⟩]) false pending written n := by
    rintro kind rfl hc hn
    exact .task (List.mem_append_right _ List.mem_cons_self) ⟨hc, hn, by rintro ⟨⟩⟩
  unfold Lane.nextDispatch at hnext
  cases h with
  | save hs hc hn =>
    split at hnext
    · rename_i he
      have hnone := hok.exit (by rw [he]; rfl)
      rw [hs] at hnone
      cases hnone
    · rw [hs] at hnext
      cases hnext
      exact hstart rfl (by simpa [isAutosave] using hc) hn
  | exit he hc hn =>
    rw [he] at hnext
    cases hnext
    exact hstart rfl (.inr hc) hn
  | task hmem hr =>
    rw [hok.idle hidle] at hmem
    cases hmem
  | written hm hn => exact .written hm hn

theorem InLane.finished {a b : List Task} {task : Task} {result : PlayerPersistenceResult} {written' : List Nat}
    (h : InLane l (a ++ task :: b) pending flight written n) (hsub : written ⊆ written')
    (hdone : result = .ok () → task.op.kind.snapshot.stamp ∈ written') :
    InLane l (a ++ { task with result := some result } :: b) pending flight written' n := by
  cases h with
  | save hs hc hn => exact .save hs hc hn
  | exit he hc hn => exact .exit he hc hn
  | @task u hmem hr =>
    have hkeep : u ∈ a ∨ u ∈ b → InLane l (a ++ { task with result := some result } :: b) pending flight
        written' n := by
      intro hu
      refine @InLane.task _ _ _ _ _ _ u ?_ ⟨hr.carrier, hr.newer, fun hok => hsub (hr.done hok)⟩
      rcases hu with hu | hu <;> simp [hu]
    rcases List.mem_append.1 hmem with hmem | hmem
    · exact hkeep (.inl hmem)
    · rcases List.mem_cons.1 hmem with rfl | hmem
      · exact .task (List.mem_append_right _ List.mem_cons_self)
          ⟨hr.carrier, hr.newer, fun hok => hdone (Option.some.inj hok)⟩
      · exact hkeep (.inr hmem)
  | written hm hn => exact .written (hsub hm) hn

/-- A carrier that fails is an autosave: it is queued again or gives way to a newer carrier. -/
theorem InLane.joined {a b : List Task} {task : Task} {result : PlayerPersistenceResult} {now : Int}
    (h : InLane l (a ++ task :: b) pending flight written n) (hok : LaneOk l (a ++ task :: b))
    (hr : task.result = some result) (hk : failed task → JoinKeeps l flight task) :
    InLane (l.complete task.op.kind result now).1.settle (a ++ b) (Tracked.carriesJoin l pending task) flight
      written n := by
  cases h with
  | save hs hc hn =>
    refine .save (by rw [Lane.settle_pendingSave, Lane.complete_pendingSave hs]) ?_ hn
    exact hc.imp_right fun hc => by simp [Tracked.carriesJoin, hc]
  | exit he hc hn => exact .exit (by simpa using he) (by simp [Tracked.carriesJoin, hc]) hn
  | @task u hmem hrun =>
    obtain ⟨rfl, rfl⟩ := hok.alone
    obtain rfl : u = task := by simpa using hmem
    cases result with
    | ok _ => exact .written (hrun.done hr) hrun.newer
    | error e =>
      have hf : failed u = true := by simp [failed, hr]
      have hkeeps := hk hf
      unfold JoinKeeps at hkeeps
      split at hkeeps
      · rename_i hauto
        -- the place is taken by an exit or a save, or the autosave is queued again
        cases hex : l.pendingExit with
        | some exit =>
          exact .exit (by simpa using hex) (by simp [Tracked.carriesJoin, hf, hauto, hex])
            (le_trans hrun.newer (hkeeps.2 _ hex))
        | none =>
          cases hps : l.pendingSave with
          | some save =>
            refine .save (by rw [Lane.settle_pendingSave, Lane.complete_pendingSave hps]) ?_
              (le_trans hrun.newer (hkeeps.1 _ hps))
            cases hu : save.urgency with
            | autosave => exact .inl rfl
            | flushNow => exact .inr (by simp [Tracked.carriesJoin, hf, hauto, hps, hu])
          | none =>
            obtain ⟨⟨pid, save | exit⟩, res⟩ := u
            · have hu : save.urgency = .autosave := by simpa [isAutosave] using hauto
              refine @InLane.save _ _ _ _ _ _ save ?_ (.inl hu) hrun.newer
              simp [Lane.complete, hu, hex, hps]
            · cases hauto
      · rename_i hauto
        rcases hrun.carrier with hc | hc
        · exact absurd hc hauto
        · rw [hkeeps] at hc
          cases hc
  | written hm hn => exact .written hm hn

end

/-! ## Runs -/

/-- A task that reports success has written its snapshot, unless it is a refused autosave. -/
theorem runOpWrites_of_ok {db : GameDb} {op : DispatchOp} {now : Int} {fault : Bool} {exitFault : Option ExitStage}
    (hc : isAutosave op.kind → RowsCurrent db op.kind.snapshot.snapshot)
    (h : (runOp db op now fault exitFault).1 = .ok ()) :
    runOpWrites db op now fault exitFault = true := by
  obtain ⟨pid, save | exit⟩ := op
  · simp only [runOp, runOpWrites] at h ⊢
    split at h
    · rename_i hout
      rw [hout]
    · rename_i hout hu
      exact absurd hout (savePlayerSnapshot_not_stale (hc (by simpa [isAutosave] using hu)) now fault)
    · cases h
    · cases h
  · simp only [runOp, runOpWrites] at h ⊢
    split at h
    · rfl
    · cases h

namespace Tracked

/-- An autosave that is at least as new is still in the channel, or a carrier of it in the lane. -/
def Carried (t : Tracked) (id : PlayerId) (n : Nat) : Prop :=
  (∃ save, .saveSnapshot save ∈ t.sys.queue ∧ save.snapshot.playerId = id ∧ save.urgency = .autosave ∧
    n ≤ save.snapshot.stamp) ∨
    InLane (t.sys.worker.lane id) (t.sys.worker.tasks id) (t.pendingCarries id) (t.flightCarries id) (t.written id) n

theorem Carried.kept {t : Tracked} {id : PlayerId} {n : Nat} (h : t.Carried id n) : t.Kept id n := by
  simp only [Kept, keptStamps, List.mem_append, List.mem_map, List.mem_filter, Option.mem_toList]
  rcases h with ⟨save, hmem, rfl, _, hn⟩ | h
  · exact ⟨_, .inl (.inl (.inl (.inl ⟨.saveSnapshot save, ⟨hmem, by simp [PlayerPersistenceRequest.playerId,
      PlayerPersistenceRequest.snapshot]⟩, rfl⟩))), hn⟩
  · cases h with
    | save hs _ hn => exact ⟨_, .inl (.inl (.inl (.inr ⟨_, hs, rfl⟩))), hn⟩
    | exit he _ hn => exact ⟨_, .inl (.inl (.inr ⟨_, he, rfl⟩)), hn⟩
    | task hmem hr => exact ⟨_, .inl (.inr ⟨_, hmem, rfl⟩), hr.newer⟩
    | written hm hn => exact ⟨_, .inr hm, hn⟩

/-- A step that adds to the channel and leaves the worker and its history alone. -/
theorem Carried.of_frame {t t' : Tracked} {id : PlayerId} {n : Nat} (h : t.Carried id n)
    (hq : t.sys.queue ⊆ t'.sys.queue) (hw : t'.sys.worker = t.sys.worker) (hp : t'.pendingCarries = t.pendingCarries)
    (hf : t'.flightCarries = t.flightCarries) (hwr : t'.written = t.written) : t'.Carried id n := by
  rcases h with ⟨save, hmem, h⟩ | h
  · exact .inl ⟨save, hq hmem, h⟩
  · refine .inr ?_
    rw [hw, hp, hf, hwr]
    exact h

structure Inv (t : Tracked) : Prop where
  own : t.sys.worker.Own
  ok : ∀ id, LaneOk (t.sys.worker.lane id) (t.sys.worker.tasks id)
  carried : ∀ id n, t.sys.clean id → t.handed id = some n → t.Carried id n

theorem inv_start (db : GameDb) : (start db).Inv := by
  refine ⟨Worker.own_new, fun id => ⟨by rintro ⟨⟩, .inl rfl⟩, ?_⟩
  rintro id n ⟨⟩

end Tracked

section
variable {t : Tracked}

theorem exposed_of_handed {id : PlayerId} {n : Nat} (hc : t.sys.clean id) (hn : t.handed id = some n) :
    t.exposed id := by
  simp [Tracked.exposed, hc, hn]

theorem carried_recv {w : Worker} {request : PlayerPersistenceRequest} {rest : List PlayerPersistenceRequest}
    (id : PlayerId) (n : Nat) (h : t.Inv) (hq : t.sys.queue = request :: rest)
    (hw : workerStep t.sys.worker (.recv request) = some w)
    (hk : t.exposed request.playerId → RecvKeeps (t.sys.worker.lane request.playerId)
      (t.pendingCarries request.playerId) request)
    (hc : t.sys.clean id) (hn : t.handed id = some n) :
    (t.afterTask { t.sys with worker := w, queue := rest } .recv).Carried id n := by
  have hex := exposed_of_handed hc hn
  simp only [workerStep] at hw
  split at hw
  · cases hw
  cases hw
  simp only [Tracked.afterTask, hq]
  by_cases hid : id = request.playerId
  · subst hid
    have hk := hk hex
    cases request with
    | saveSnapshot save =>
      have hlane : (t.sys.worker.handleRequest (.saveSnapshot save)).lane save.snapshot.playerId =
          ((t.sys.worker.lane save.snapshot.playerId).queueSave save).1 :=
        (t.sys.worker.lane_handleRequest_save save _).trans (if_pos rfl)
      rcases h.carried _ n hc hn with ⟨save', hmem, hid, hu, hle⟩ | hin
      · rw [hq] at hmem
        rcases List.mem_cons.1 hmem with heq | hmem
        · cases heq
          refine .inr ?_
          simp only [Function.update_self]
          exact hlane ▸ InLane.arrive hu hle hk
        · exact .inl ⟨save', hmem, hid, hu, hle⟩
      · refine .inr ?_
        simp only [Function.update_self]
        exact hlane ▸ hin.recv_save (h.ok _) hk
    | commitPlayerExit exit =>
      have hlane : (t.sys.worker.handleRequest (.commitPlayerExit exit)).lane exit.snapshot.playerId =
          ((t.sys.worker.lane exit.snapshot.playerId).queueExit exit).1 :=
        (t.sys.worker.lane_handleRequest_exit exit _).trans (if_pos rfl)
      rcases h.carried _ n hc hn with ⟨save', hmem, hid, hu, hle⟩ | hin
      · rw [hq] at hmem
        rcases List.mem_cons.1 hmem with heq | hmem
        · cases heq
        · exact .inl ⟨save', hmem, hid, hu, hle⟩
      · refine .inr ?_
        simp only [Function.update_self]
        exact hlane ▸ hin.recv_exit hk
  · rcases h.carried id n hc hn with ⟨save', hmem, hsid, hu, hle⟩ | hin
    · rw [hq] at hmem
      rcases List.mem_cons.1 hmem with rfl | hmem
      · exact absurd hsid.symm hid
      · exact .inl ⟨save', hmem, hsid, hu, hle⟩
    · refine .inr ?_
      simp only [Function.update_of_ne hid, t.sys.worker.lane_handleRequest_of_ne hid, Worker.tasks_handleRequest]
      exact hin

/-- The rest of the worker's events leave the channel alone. -/
theorem Tracked.Carried.of_lane {t' : Tracked} {id : PlayerId} {n : Nat} (h : t.Carried id n)
    (hq : t'.sys.queue = t.sys.queue)
    (hl : InLane (t.sys.worker.lane id) (t.sys.worker.tasks id) (t.pendingCarries id) (t.flightCarries id)
      (t.written id) n → InLane (t'.sys.worker.lane id) (t'.sys.worker.tasks id) (t'.pendingCarries id)
      (t'.flightCarries id) (t'.written id) n) :
    t'.Carried id n := by
  rcases h with h | h
  · exact .inl (hq ▸ h)
  · exact .inr (hl h)

theorem carried_dispatch {w : Worker} {order : List PlayerId} {now : Int} {id : PlayerId} {n : Nat} (h : t.Inv)
    (hw : workerStep t.sys.worker (.dispatch order now) = some w) (hin : t.Carried id n) :
    (t.afterTask { t.sys with worker := w } (.dispatch order now)).Carried id n := by
  refine hin.of_lane rfl fun hin => ?_
  obtain ⟨rs, hstep⟩ := laneStep_of_workerStep hw h.own id
  generalize hl : w.lane id = l' at hstep
  generalize hts : w.tasks id = ts' at hstep
  cases hstep with
  | kept => simpa [Tracked.afterTask, hl, hts] using hin
  | dispatched hidle hnext =>
    simp only [Tracked.afterTask, hl, hts, hidle, Bool.not_false, Bool.and_self, if_true]
    exact hin.dispatched (h.ok id) hidle hnext

theorem carried_exec {w : Worker} {i : Nat} {now : Int} {fault : Bool} {exitFault : Option ExitStage} {task : Task}
    {id : PlayerId} {n : Nat} (h : t.Inv) (ht : t.sys.worker.inFlight[i]? = some task)
    (hw : workerStep t.sys.worker (.finish i (runOp t.sys.db task.op now fault exitFault).1) = some w)
    (hk : t.exposed task.op.playerId → isAutosave task.op.kind → RowsCurrent t.sys.db task.op.kind.snapshot.snapshot)
    (hc : t.sys.clean id) (hn : t.handed id = some n) (db : GameDb) :
    (t.afterTask { t.sys with worker := w, db } (.exec i now fault exitFault)).Carried id n := by
  have hex := exposed_of_handed hc hn
  obtain ⟨rs, hstep⟩ := laneStep_of_workerStep hw h.own id
  -- what the step adds to the written snapshots
  have hsub : t.written id ⊆ (t.afterTask { t.sys with worker := w, db } (.exec i now fault exitFault)).written id := by
    simp only [Tracked.afterTask, ht]
    split
    · by_cases hid : id = task.op.playerId
      · subst hid
        simp
      · simp [Function.update_of_ne hid]
    · exact fun _ hm => hm
  have hmarks : (t.afterTask { t.sys with worker := w, db } (.exec i now fault exitFault)).sys =
      { t.sys with worker := w, db } ∧
      (t.afterTask { t.sys with worker := w, db } (.exec i now fault exitFault)).pendingCarries = t.pendingCarries ∧
      (t.afterTask { t.sys with worker := w, db } (.exec i now fault exitFault)).flightCarries = t.flightCarries := by
    simp only [Tracked.afterTask, ht]
    split <;> exact ⟨rfl, rfl, rfl⟩
  obtain ⟨hsys, hp, hf⟩ := hmarks
  refine (h.carried id n hc hn).of_lane (by rw [hsys]) fun hin => ?_
  rw [hsys, hp, hf]
  have hmem : task ∈ t.sys.worker.tasks id → task.op.playerId = id := by
    intro hm
    simpa using (List.mem_filter.1 hm).2
  dsimp only
  generalize hts : t.sys.worker.tasks id = ts at hstep hin hmem
  generalize w.lane id = l' at hstep ⊢
  generalize w.tasks id = ts' at hstep ⊢
  cases hstep with
  | kept => exact hin.mono (fun hp => hp) hsub
  | @finished _ _ _ a b u hi hr =>
    rw [ht] at hi
    cases hi
    obtain rfl := hmem (by simp)
    refine hin.finished hsub fun hok => ?_
    simp only [Tracked.afterTask, ht, runOpWrites_of_ok (hk hex) hok, if_true, Function.update_self,
      List.mem_cons, true_or]

theorem carried_join {w : Worker} {i : Nat} {now : Int} {task : Task} (id : PlayerId) (n : Nat) (h : t.Inv)
    (ht : t.sys.worker.inFlight[i]? = some task) (hw : workerStep t.sys.worker (.joinNext i now) = some w)
    (hk : t.exposed task.op.playerId → failed task →
      JoinKeeps (t.sys.worker.lane task.op.playerId) (t.flightCarries task.op.playerId) task)
    (hc : t.sys.clean id) (hn : t.handed id = some n) :
    (t.afterTask { t.sys with worker := w } (.joinNext i now)).Carried id n := by
  have hex := exposed_of_handed hc hn
  have hok := h.ok id
  obtain ⟨rs, hstep⟩ := laneStep_of_workerStep hw h.own id
  simp only [Tracked.afterTask, ht]
  refine (h.carried id n hc hn).of_lane rfl fun hin => ?_
  have hmem : task ∈ t.sys.worker.tasks id → task.op.playerId = id := by
    intro hm
    simpa using (List.mem_filter.1 hm).2
  have hpending : t.pendingCarries id = true → Function.update t.pendingCarries task.op.playerId
      (Tracked.carriesJoin (t.sys.worker.lane task.op.playerId) (t.pendingCarries task.op.playerId) task)
        id = true := by
    intro hp
    by_cases hid : id = task.op.playerId
    · subst hid
      simp [Tracked.carriesJoin, hp]
    · rw [Function.update_of_ne hid, hp]
  dsimp only
  generalize hl : t.sys.worker.lane id = l at hstep hin hok
  generalize hts : t.sys.worker.tasks id = ts at hstep hin hmem hok
  generalize w.lane id = l' at hstep ⊢
  generalize w.tasks id = ts' at hstep ⊢
  cases hstep with
  | kept => exact hin.mono hpending fun _ hm => hm
  | @joined _ _ _ a b u result hi hr =>
    rw [ht] at hi
    cases hi
    obtain rfl := hmem (by simp)
    rw [Function.update_self, hl]
    exact hin.joined hok hr (hl ▸ hk hex)
  | orphaned u => cases hok.busy

theorem Tracked.Inv.of_worker {w : Worker} {ev : WorkerEvent} {t' : Tracked} (h : t.Inv)
    (hw : workerStep t.sys.worker ev = some w) (hs : t'.sys.worker = w)
    (hc : ∀ id n, t'.sys.clean id → t'.handed id = some n → t'.Carried id n) : t'.Inv := by
  subst hs
  exact ⟨workerStep_own hw h.own, workerStep_laneOk hw h.own h.ok, hc⟩

theorem afterTask_inv {s' : System} {ev : TaskEvent} (h : t.Inv) (hk : KeepsAutosave t (.task ev))
    (hs : taskStep t.sys ev = some s') : (t.afterTask s' ev).Inv := by
  cases ev with
  | recv =>
    simp only [taskStep] at hs
    split at hs
    · cases hs
    · rename_i request rest hq
      obtain ⟨w, hw, rfl⟩ := Option.map_eq_some_iff.1 hs
      refine h.of_worker hw (by simp only [Tracked.afterTask, hq]) fun id n => ?_
      have hkeeps := hk request (by rw [hq]; rfl)
      have hcar := carried_recv id n h hq hw hkeeps
      simp only [Tracked.afterTask, hq] at hcar ⊢
      exact hcar
  | dispatch order now =>
    obtain ⟨w, hw, rfl⟩ := Option.map_eq_some_iff.1 hs
    exact h.of_worker hw rfl fun id n hc hn => carried_dispatch h hw (h.carried id n hc hn)
  | exec i now fault exitFault =>
    obtain ⟨task, ht, hs⟩ := Option.bind_eq_some_iff.1 hs
    obtain ⟨w, hw, rfl⟩ := Option.map_eq_some_iff.1 hs
    have hsame : ∀ db, (t.afterTask { t.sys with worker := w, db } (.exec i now fault exitFault)).sys =
        { t.sys with worker := w, db } ∧
        (t.afterTask { t.sys with worker := w, db } (.exec i now fault exitFault)).handed = t.handed := by
      intro db
      simp only [Tracked.afterTask, ht]
      split <;> exact ⟨rfl, rfl⟩
    refine h.of_worker hw (by rw [(hsame _).1]) fun id n hc hn => ?_
    rw [(hsame _).1] at hc
    rw [(hsame _).2] at hn
    exact carried_exec h ht hw (hk task ht) hc hn _
  | joinNext i now =>
    obtain ⟨w, hw, rfl⟩ := Option.map_eq_some_iff.1 hs
    cases ht : t.sys.worker.inFlight[i]? with
    | none => simp [workerStep, ht] at hw
    | some task =>
      refine h.of_worker hw (by simp only [Tracked.afterTask, ht]) fun id n => ?_
      have hcar := carried_join id n h ht hw (hk task ht)
      simp only [Tracked.afterTask, ht] at hcar ⊢
      exact hcar

end

section
variable {t t' : Tracked}

/-- A step in front of the worker. -/
theorem Tracked.Inv.of_frame (h : t.Inv) (hq : t.sys.queue ⊆ t'.sys.queue) (hw : t'.sys.worker = t.sys.worker)
    (hp : t'.pendingCarries = t.pendingCarries) (hf : t'.flightCarries = t.flightCarries) (hwr : t'.written = t.written)
    (hc : ∀ id n, t'.sys.clean id → t'.handed id = some n → (t.sys.clean id ∧ t.handed id = some n) ∨ t'.Carried id n) :
    t'.Inv := by
  refine ⟨hw ▸ h.own, hw ▸ h.ok, fun id n hclean hn => ?_⟩
  rcases hc id n hclean hn with ⟨hclean, hn⟩ | hcar
  · exact (h.carried id n hclean hn).of_frame hq hw hp hf hwr
  · exact hcar

theorem MapFrame.queue_subset {s s' : System} (h : MapFrame s s') : s.queue ⊆ s'.queue := by
  rcases h.queue with ⟨hq, _⟩ | ⟨save, hq, _⟩ <;> rw [hq]
  · exact fun _ hm => hm
  · exact List.subset_append_left _ _

theorem ConnFrame.queue_subset {s s' : System} {k : Connection} {c : InGame} (h : ConnFrame s s' k c) :
    s.queue ⊆ s'.queue := by
  rcases h.queue with ⟨hq, _⟩ | ⟨request, hq, _⟩ <;> rw [hq]
  · exact fun _ hm => hm
  · exact List.subset_append_left _ _

variable [GrowthRng] {cfg : Config}

theorem trackedStep_inv {ev : Event} (h : t.Inv) (hk : KeepsAutosave t ev) (hs : trackedStep cfg t ev = some t') :
    t'.Inv := by
  obtain ⟨s', hstep, rfl⟩ := Option.map_eq_some_iff.1 hs
  cases ev with
  | task ev => exact afterTask_inv h hk hstep
  | conn k ev =>
    obtain ⟨c, hconn, hstep⟩ := Option.bind_eq_some_iff.1 hstep
    have hf := connStep_frame hconn hstep
    exact h.of_frame hf.queue_subset hf.worker rfl rfl rfl fun id n hc hn => .inl ⟨hf.clean hc, hn⟩
  | map ev =>
    obtain ⟨hf, _⟩ := mapStep_frame hstep
    have hkept : ev.entering = none → (∀ id now pos, ev ≠ .autosave id now pos) →
        ({ t with sys := s' } : Tracked).Inv :=
      fun hne ha => h.of_frame hf.queue_subset hf.worker rfl rfl rfl fun id n hc hn =>
        .inl ⟨clean_of_mapStep hstep hne ha hc, hn⟩
    cases ev with
    | enter k username b epoch playtime now =>
      refine h.of_frame hf.queue_subset hf.worker rfl rfl rfl fun id n hc hn => .inl ?_
      by_cases hid : id = b.playerId
      · subst hid
        simp at hn
      · exact ⟨(clean_of_enter hstep hid).symm.trans hc, (Function.update_of_ne hid _ _).symm.trans hn⟩
    | autosave id now pos =>
      rcases enqueueDueAutosave_cases hstep with ⟨hq, hclean⟩ | ⟨snapshot, hid, hq, hclean⟩
      · simp only [hq, lt_irrefl, if_false]
        exact h.of_frame hf.queue_subset hf.worker rfl rfl rfl fun id n hc hn => .inl ⟨hclean id hc, hn⟩
      · simp only [hq, List.length_append, List.length_singleton, Nat.lt_succ_self, if_true]
        refine h.of_frame hf.queue_subset hf.worker rfl rfl rfl fun id' n hc hn => ?_
        by_cases hne : id' = id
        · subst hne
          simp only [Function.update_self] at hn
          cases hn
          refine .inr (.inl ⟨⟨⟨t.sys.nextStamp, snapshot⟩, .autosave, none⟩, ?_, hid, rfl, le_refl _⟩)
          rw [hq]
          exact List.mem_append_right _ List.mem_cons_self
        · exact .inl ⟨hclean id' hne hc, (Function.update_of_ne hne _ _).symm.trans hn⟩
    | reward id reward => exact hkept rfl (by rintro _ _ _ ⟨⟩)
    | coreStat id stat delta now pos => exact hkept rfl (by rintro _ _ _ ⟨⟩)
    | finalizePendingSave id => exact hkept rfl (by rintro _ _ _ ⟨⟩)
    | markDirty id => exact hkept rfl (by rintro _ _ _ ⟨⟩)

/-- In every run whose steps keep the autosaves, and in every state of it: while a player is on the map with a clear
flag, the snapshot that its last accepted autosave handed over, or a newer one, is pending, in flight or written. -/
theorem autosave_kept {db : GameDb} {es : List Event} {id : PlayerId} {n : Nat}
    (hm : Meets (trackedStep cfg) KeepsAutosave (.start db) es) (hr : run (trackedStep cfg) (.start db) es = some t)
    (hc : t.sys.clean id) (hn : t.handed id = some n) : t.Kept id n :=
  ((run_inv_of_meets (fun _ _ _ hI hC hs => trackedStep_inv hI hC hs) (Tracked.inv_start db) hm hr).carried
    id n hc hn).kept

end

/-! ## The runs -/

/-- An autosave is written and the next one is on its way to the worker when a handoff fails. -/
def failedHandoffEvents : List Event :=
  [.map (.enter connA "admin" noviceBootstrap .initial ⟨0⟩ 0), .map (.markDirty novice),
    .map (.autosave novice 30007 ⟨0, 0⟩),
   .task .recv, .task (.dispatch [novice] 0), .task (.exec 0 1 false none), .task (.joinNext 0 0),
   .conn connA (.capture 30010 ⟨0, 0⟩ "metin2_map_a1" ⟨0, 0⟩), .conn connA .send, .task .recv,
   .task (.dispatch [novice] 0),
   .map (.markDirty novice), .map (.autosave novice 60007 ⟨0, 0⟩), .task .recv,
   .task (.exec 0 2 false (some .player)), .task (.joinNext 0 0), .conn connA .reply]

theorem autosave_kept_failedHandoff :
    let := splitMix64Rolls
    ∃ t, run (trackedStep noviceConfig) (.start seededDb) failedHandoffEvents = some t ∧ t.sys.clean novice ∧
      t.handed novice = some 2 ∧ t.Kept novice 2 := by
  intro rng
  have hmeets : Meets (trackedStep noviceConfig) KeepsAutosave (.start seededDb) failedHandoffEvents := by
    decide +kernel
  have hrun : ((run (trackedStep noviceConfig) (.start seededDb) failedHandoffEvents).map fun t =>
      (t.sys.clean novice, t.handed novice)) = some (true, some 2) := by decide +kernel
  obtain ⟨t, ht, hp⟩ := Option.map_eq_some_iff.1 hrun
  obtain ⟨hc, hn⟩ := Prod.mk.inj hp
  exact ⟨t, ht, hc, hn, autosave_kept hmeets ht hc hn⟩

/-- The exit is pending behind a running autosave when the worker receives the next one. -/
def droppedAutosaveEvents : List Event :=
  [.map (.enter connA "admin" noviceBootstrap .initial ⟨0⟩ 0), .map (.markDirty novice),
    .map (.autosave novice 30007 ⟨0, 0⟩),
   .task .recv, .task (.dispatch [novice] 0),
   .conn connA (.capture 30010 ⟨0, 0⟩ "metin2_map_a1" ⟨0, 0⟩), .conn connA .send, .task .recv,
   .map (.markDirty novice), .map (.autosave novice 60007 ⟨0, 0⟩), .task .recv,
   .task (.exec 0 1 false none), .task (.joinNext 0 0), .task (.dispatch [novice] 0),
   .task (.exec 0 2 false (some .player)), .task (.joinNext 0 0), .conn connA .reply]

/-- The handoff fails, play goes on with a clear flag, and the second autosave is nowhere. -/
theorem autosave_kept_dropped :
    let := splitMix64Rolls
    ∃ t, run (trackedStep noviceConfig) (.start seededDb) droppedAutosaveEvents = some t ∧
      (t.sys.conns connA).map InGame.relocationError = some (some .commitFailed) ∧ t.sys.clean novice ∧
      t.handed novice = some 2 ∧ ¬ t.Kept novice 2 := by
  intro rng
  have hrun : ((run (trackedStep noviceConfig) (.start seededDb) droppedAutosaveEvents).map fun t =>
      ((t.sys.conns connA).map InGame.relocationError, t.sys.clean novice, t.handed novice, decide (t.Kept novice 2))) =
        some (some (some .commitFailed), true, some 2, false) := by decide +kernel
  obtain ⟨t, ht, hp⟩ := Option.map_eq_some_iff.1 hrun
  simp only [Prod.mk.injEq, decide_eq_false_iff_not] at hp
  exact ⟨t, ht, hp⟩

end Zohar.Core
