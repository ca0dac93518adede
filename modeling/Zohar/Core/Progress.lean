/-
What a handoff takes along. The snapshot is captured by one message to the map, committed by the worker, and the
player leaves the map by another message; the map plays on in between. A history beside the system notes what each
exit has stored.
-/
import Zohar.Core.Handoff

namespace Zohar.Db

/-- The columns of a row that make up a progression. -/
def ProgressionRow.progression (q : ProgressionRow) : PlayerProgressionSnapshot :=
  ⟨q.level, q.expInLevel, ⟨q.allocatedStr, q.allocatedVit, q.allocatedDex, q.allocatedInt⟩, q.statResetCount⟩

theorem ProgressionRow.progression_write (q : ProgressionRow) (s : PlayerSnapshot) :
    (q.write s).progression = s.progression := rfl

end Zohar.Db

namespace Zohar.Core

open Zohar.Lib Zohar.Db Zohar.Persistence Zohar.Stats Zohar.Sim

/-! ## The history -/

structure Ledger where
  sys : System
  /-- The progression that the exit with this reply channel stored. -/
  stored : Reply → Option PlayerProgressionSnapshot

namespace Ledger

def start (db : GameDb) : Ledger := ⟨.start db, fun _ => none⟩

def storedAfter (t : Ledger) (s : System) : Event → Reply → Option PlayerProgressionSnapshot
  | .task (.exec i now fault exitFault) =>
    match t.sys.worker.inFlight[i]? with
    | none => t.stored
    | some task =>
      match task.op.kind with
      | .save _ => t.stored
      | .commitPlayerExit exit =>
        if runOpWrites t.sys.db task.op now fault exitFault then
          Function.update t.stored exit.reply ((s.db.progression exit.snapshot.playerId).map ProgressionRow.progression)
        else t.stored
  | _ => t.stored

end Ledger

def ledgerStep [GrowthRng] (cfg : Config) (t : Ledger) (ev : Event) : Option Ledger :=
  (systemStep cfg t.sys ev).map fun s => ⟨s, t.storedAfter s ev⟩

/-- The history does not steer the system. -/
theorem run_ledgerStep [GrowthRng] (cfg : Config) (es : List Event) (t : Ledger) :
    (run (ledgerStep cfg) t es).map Ledger.sys = run (systemStep cfg) t.sys es := by
  refine run_map (fun t ev => ?_) es t
  rw [ledgerStep, Option.map_map]
  exact Option.map_id'

/-! ## What the exit stores -/

/-- The exit with this reply channel carries the progression, and stores nothing else. -/
structure Handing (t : Ledger) (r : Reply) (P : PlayerProgressionSnapshot) : Prop where
  known : r < t.sys.nextReply
  exits : ∀ exit, t.sys.HasExit exit → exit.reply = r → exit.snapshot.snapshot.progression = P
  queued : ∀ save, .saveSnapshot save ∈ t.sys.queue → save.reply ≠ some r
  saves : ¬ t.sys.worker.SaveHolds r
  stored : t.sys.worker.Succeeded r → t.stored r = some P

section
variable {cfg : Config} {t : Ledger} {s' : System} {r : Reply} {P : PlayerProgressionSnapshot}

/-- What a successful exit leaves in the row. -/
theorem runOp_progression {db : GameDb} {op : DispatchOp} {exit : PendingExit} (hop : op.kind = .commitPlayerExit exit)
    {now : Int} {fault : Bool} {exitFault : Option ExitStage} (h : runOpWrites db op now fault exitFault = true) :
    ((runOp db op now fault exitFault).2.progression exit.snapshot.playerId).map ProgressionRow.progression =
      some exit.snapshot.snapshot.progression := by
  obtain ⟨pid, kind⟩ := op
  subst hop
  obtain ⟨_, r, q, row, _, _, _, _, _, hdb⟩ := commitPlayerExit_ok ((runOpWrites_exit ..).1 h)
  rw [runOp_exit_snd, hdb]
  simp [Stamped.playerId, ProgressionRow.progression_write]

theorem Handing.of_frame {t' : Ledger} (h : Handing t r P) (hw : t'.sys.worker = t.sys.worker)
    (hst : t'.stored = t.stored) (hn : t.sys.nextReply ≤ t'.sys.nextReply)
    (hexits : ∀ exit, t'.sys.HasExit exit → t.sys.HasExit exit ∨ exit.reply = t.sys.nextReply)
    (hqueue : ∀ save, .saveSnapshot save ∈ t'.sys.queue → .saveSnapshot save ∈ t.sys.queue ∨ ∀ r, save.reply = some r →
      r = t.sys.nextReply) :
    Handing t' r P := by
  have hne : r ≠ t.sys.nextReply := ne_of_lt h.known
  refine ⟨lt_of_lt_of_le h.known hn, ?_, ?_, by rw [hw]; exact h.saves, by rw [hw, hst]; exact h.stored⟩
  · intro exit hex hr
    rcases hexits exit hex with hex | hnew
    · exact h.exits exit hex hr
    · exact absurd (hr.symm.trans hnew) hne
  · intro save hmem hr
    rcases hqueue save hmem with hmem | hnew
    · exact h.queued save hmem hr
    · exact hne (hnew r hr)

theorem MapFrame.handing {t' : Ledger} (hf : MapFrame t.sys t'.sys) (h : Handing t r P) (hst : t'.stored = t.stored) :
    Handing t' r P := by
  refine h.of_frame hf.worker hst ?_ (fun exit hex => .inl (hf.hasExit hex)) ?_
  · rcases hf.queue with ⟨_, hn⟩ | ⟨_, _, ⟨_, hn⟩ | ⟨_, hn⟩⟩ <;> omega
  · intro save hmem
    rcases hf.queue with ⟨hq, _⟩ | ⟨save', hq, hreply⟩ <;> rw [hq] at hmem
    · exact .inl hmem
    · rcases List.mem_append.1 hmem with hmem | hmem
      · exact .inl hmem
      · cases List.mem_singleton.1 hmem
        refine .inr fun r hr => ?_
        rcases hreply with ⟨hnone, _⟩ | ⟨hsome, _⟩
        · rw [hnone] at hr
          cases hr
        · exact Option.some.inj (hr.symm.trans hsome)

theorem ConnFrame.handing {t' : Ledger} {k : Connection} {c : InGame} (hf : ConnFrame t.sys t'.sys k c)
    (h : Handing t r P) (hst : t'.stored = t.stored) : Handing t' r P := by
  refine h.of_frame hf.worker hst ?_ (fun exit hex => (hf.hasExit hex).imp_right fun hnew => hnew.2.2) ?_
  · rcases hf.queue with ⟨_, hn⟩ | ⟨_, _, _, _, hn, _⟩ <;> omega
  · intro save hmem
    rcases hf.queue with ⟨hq, _⟩ | ⟨request, hq, _, hreply, _⟩ <;> rw [hq] at hmem
    · exact .inl hmem
    · rcases List.mem_append.1 hmem with hmem | hmem
      · exact .inl hmem
      · obtain rfl := List.mem_singleton.1 hmem
        exact .inr fun r hr => Option.some.inj (hr.symm.trans hreply)

/-- What a step notes: nothing, or what the exit that it runs has stored. -/
theorem storedAfter_task {ev : TaskEvent} {wev : WorkerEvent} (hf : TaskFrame t.sys s' ev wev) :
    (t.storedAfter s' (.task ev) = t.stored ∧ ∀ i task exit, wev = .finish i (.ok ()) →
      t.sys.worker.inFlight[i]? = some task →
        task.op.kind ≠ .commitPlayerExit exit) ∨
      ∃ i task exit, t.sys.worker.inFlight[i]? = some task ∧ task.op.kind = .commitPlayerExit exit ∧
        (∀ j result, wev = .finish j result → j = i) ∧
        t.storedAfter s' (.task ev) = Function.update t.stored exit.reply
          (some exit.snapshot.snapshot.progression) := by
  have hdb := hf.db
  generalize hdb' : s'.db = db' at hdb
  cases hdb with
  | kept hev hwev =>
    refine .inl ⟨?_, fun i task exit he => absurd he (hwev i _)⟩
    cases ev with
    | exec i now fault exitFault => exact absurd rfl (hev i now fault exitFault)
    | recv => rfl
    | dispatch order now => rfl
    | joinNext i now => rfl
  | @exec i now fault exitFault task ht =>
    simp only [Ledger.storedAfter, ht]
    split
    · rename_i save hk
      refine .inl ⟨rfl, fun j task' exit he ht' hk' => ?_⟩
      obtain ⟨rfl, _⟩ := WorkerEvent.finish.inj he
      rw [ht] at ht'
      cases ht'
      rw [hk] at hk'
      cases hk'
    · rename_i exit hk
      split
      · rename_i hw
        refine .inr ⟨i, task, exit, ht, hk, fun j result he => (WorkerEvent.finish.inj he).1.symm, ?_⟩
        rw [hdb', runOp_progression hk hw]
      · rename_i hw
        refine .inl ⟨rfl, fun j task' exit' he ht' _ => hw ?_⟩
        obtain ⟨rfl, hres⟩ := WorkerEvent.finish.inj he
        obtain ⟨⟨pid, kind⟩, result⟩ := task
        obtain rfl : kind = .commitPlayerExit exit := hk
        exact (runOpWrites_exit ..).2 ((runOp_exit_ok ..).1 hres)

/-- A success is noted when it happens, and it can only be that of the exit. -/
theorem Handing.task {ev : TaskEvent} (h : Handing t r P) (hown : t.sys.worker.Own) (hs : taskStep t.sys ev = some s') :
    Handing ⟨s', t.storedAfter s' (.task ev)⟩ r P := by
  obtain ⟨wev, hf⟩ := taskStep_frame hs
  obtain ⟨hnext, hqueue, _⟩ := taskStep_replies hs hown r
  refine ⟨hnext ▸ h.known, fun exit hex => h.exits exit (taskStep_hasExit hs hown hex),
    fun save hmem => h.queued save (hqueue _ hmem), ?_, ?_⟩
  · intro hsave
    rcases workerStep_saveHolds hf.worker hown hsave with hsave | ⟨save, hev, hr⟩
    · exact h.saves hsave
    · exact h.queued save (hf.request _ hev) hr
  · intro hsucc
    show t.storedAfter s' (.task ev) r = some P
    have hheld : ∀ {i : Nat} {task : Task} {exit : PendingExit}, t.sys.worker.inFlight[i]? = some task →
        task.op.kind = .commitPlayerExit exit → t.sys.HasExit exit := fun ht hk =>
      .inr ⟨_, .inr ⟨_, Worker.mem_tasks ht, hk⟩⟩
    rcases storedAfter_task hf with ⟨hsame, hnone⟩ | ⟨i, task, exit, ht, hk, hi, hnew⟩
    · rw [hsame]
      rcases workerStep_succeeded hf.worker hown hsucc with hsucc | hsave | ⟨i, task, exit, hev, ht, hk, _⟩
      · exact h.stored hsucc
      · exact absurd hsave h.saves
      · exact absurd hk (hnone i task exit hev ht)
    · rw [hnew]
      by_cases hr : r = exit.reply
      · subst hr
        rw [Function.update_self, h.exits exit (hheld ht hk) rfl]
      · rw [Function.update_of_ne hr]
        rcases workerStep_succeeded hf.worker hown hsucc with hsucc | hsave | ⟨j, task', exit', hev, ht', hk', hr'⟩
        · exact h.stored hsucc
        · exact absurd hsave h.saves
        · -- the exit that has just succeeded is the one that was noted
          obtain rfl := hi j _ hev
          rw [ht] at ht'
          cases ht'
          rw [hk] at hk'
          cases hk'
          exact absurd hr'.symm hr

/-- A reply channel that is yet to be made is nowhere. -/
theorem Fresh.handing {v : Ledger} {k : Connection} {c : InGame} (h : Fresh t.sys) (hf : ConnFrame t.sys v.sys k c)
    {exit : PendingExit} (hq : v.sys.queue = t.sys.queue ++ [.commitPlayerExit exit])
    (hn : v.sys.nextReply = t.sys.nextReply + 1) (hP : exit.snapshot.snapshot.progression = P) :
    Handing v t.sys.nextReply P := by
  obtain ⟨hqueued, hheld, hans⟩ := h t.sys.nextReply le_rfl
  refine ⟨by rw [hn]; exact Nat.lt_succ_self _, ?_, ?_, ?_, ?_⟩
  · rintro exiv (hmem | ⟨id, hex⟩) hr'
    · rw [hq] at hmem
      rcases List.mem_append.1 hmem with hmem | hmem
      · have := queued_pos hmem (congrArg some hr')
        omega
      · cases List.mem_singleton.1 hmem
        exact hP
    · rw [hf.worker] at hex
      have := hex.held_pos
      rw [hr'] at this
      have hzero := hheld id
      unfold Worker.held at hzero
      omega
  · intro save hmem hr'
    rw [hq] at hmem
    rcases List.mem_append.1 hmem with hmem | hmem
    · have := queued_pos hmem hr'
      omega
    · cases List.mem_singleton.1 hmem
  · rintro ⟨id, hs⟩
    rw [hf.worker] at hs
    have := hs.held_pos
    have hzero := hheld id
    unfold Worker.held at hzero
    omega
  · rw [hf.worker]
    rintro (⟨id, hc⟩ | hmem)
    · have : 0 < t.sys.worker.held id t.sys.nextReply := hc.held_pos
      rw [hheld id] at this
      omega
    · have := answers_pos hmem
      omega

/-- What holds of every run. -/
structure Sound (s : System) : Prop where
  own : s.worker.Own
  fresh : Fresh s
  nets : ∀ k c, s.conns k = some c → c.netId < s.nextNetId

theorem Sound.step [GrowthRng] {s s' : System} {ev : Event} (h : Sound s) (hs : systemStep cfg s ev = some s') :
    Sound s' := by
  cases ev with
  | map ev =>
    obtain ⟨hf, hkept⟩ := mapStep_frame hs
    refine ⟨hf.worker ▸ h.own, hf.fresh h.fresh, fun k c hc => ?_⟩
    cases hent : ev.entering with
    | none =>
      rw [(hkept hent).1] at hc
      exact lt_of_lt_of_le (h.nets k c hc) hf.nextNetId
    | some x =>
      cases ev <;> cases hent
      obtain ⟨_, hconns, hnext⟩ := enterPlayer_spec hs
      rw [hconns, Function.update_apply] at hc
      rw [hnext]
      split at hc
      · cases hc
        exact Nat.lt_succ_self _
      · exact Nat.lt_succ_of_lt (h.nets k c hc)
  | conn k' ev =>
    obtain ⟨c0, hc0, hs⟩ := Option.bind_eq_some_iff.1 hs
    have hf := connStep_frame hc0 hs
    refine ⟨hf.worker ▸ h.own, hf.fresh h.fresh, fun k c hc => ?_⟩
    rw [hf.nextNetId]
    by_cases hk : k = k'
    · subst hk
      rw [(hf.entry c hc).2.2.1]
      exact h.nets k c0 hc0
    · rw [hf.conns k hk] at hc
      exact h.nets k c hc
  | task ev =>
    obtain ⟨wev, hf⟩ := taskStep_frame hs
    exact ⟨workerStep_own hf.worker h.own, h.fresh.task h.own hs, by rw [hf.conns, hf.nextNetId]; exact h.nets⟩

theorem sound_start (db : GameDb) : Sound (.start db) :=
  ⟨Worker.own_new, fun _ _ => ⟨rfl, fun _ => rfl, rfl⟩, by rintro _ _ ⟨⟩⟩

end

/-- Where the handoff of a capture with this progression stands. -/
def Carries (t : Ledger) (P : PlayerProgressionSnapshot) (c : InGame) : Prop :=
  match c.state with
  | .exiting .handoff x => x.snapshot.progression = P
  | .awaitingExit .handoff r => Handing t r P
  | .handedOff r => Handing t r P ∧ (r, some (.ok ())) ∈ t.sys.worker.replies
  | _ => True

/-- The event neither takes a new snapshot for the connection nor lets it enter again. -/
def KeepsCapture (k : Connection) : Event → Prop
  | .map ev => ∀ x ∈ ev.entering, x.1 ≠ k
  | .conn k' (.capture _ _ _ _) => k' ≠ k
  | _ => True

instance (k : Connection) (ev : Event) : Decidable (KeepsCapture k ev) :=
  match ev with
  | .map _ => inferInstanceAs (Decidable (∀ _ ∈ _, _))
  | .conn _ (.capture _ _ _ _) => inferInstanceAs (Decidable (_ ≠ _))
  | .conn _ (.disconnect _ _ _) | .conn _ (.phaseSelect _ _ _) | .conn _ .send | .conn _ .sendTimeout | .conn _ .reply
  | .conn _ .replyTimeout | .conn _ .playerLeave | .conn _ (.heartbeat _) => .isTrue trivial
  | .task _ => .isTrue trivial

section
variable {cfg : Config} {t t' : Ledger} {k : Connection} {P : PlayerProgressionSnapshot} {c c' : InGame}

theorem Carries.of_handing (h : Carries t P c) (hh : ∀ r, Handing t r P → Handing t' r P)
    (hr : ∀ x ∈ t.sys.worker.replies, x ∈ t'.sys.worker.replies) : Carries t' P c := by
  unfold Carries at h ⊢
  split
  · rename_i hst
    rw [hst] at h
    exact h
  · rename_i hst
    rw [hst] at h
    exact hh _ h
  · rename_i hst
    rw [hst] at h
    exact ⟨hh _ h.1, hr _ h.2⟩
  · trivial

/-- The connection's own steps, except for the capture. -/
theorem Carries.own_step {s' : System} {ev : ConnEvent} (h : Carries t P c) (hsound : Sound t.sys)
    (hc : t.sys.conns k = some c) (hne : ∀ now pos mapKey localPos, ev ≠ .capture now pos mapKey localPos)
    (hs : connStep cfg t.sys k c ev = some s') (hc' : s'.conns k = some c') : Carries ⟨s', t.stored⟩ P c' := by
  have hf := connStep_frame hc hs
  cases connStep_move hc hs hc' with
  | captured hev =>
    obtain ⟨now, pos, mapKey, localPos, rfl⟩ := hev
    exact absurd rfl (hne now pos mapKey localPos)
  | @sent x hst hst' hq hn =>
    have hx : x.snapshot.progression = P := by simpa only [Carries, hst] using h
    simp only [Carries, hst']
    exact Fresh.handing (v := ⟨s', t.stored⟩) hsound.fresh hf hq hn hx
  | @done r hst hr hst' =>
    -- the answer is on record, so what was stored is too
    have hh : Handing t r P := by simpa only [Carries, hst] using h
    obtain ⟨⟨r', y⟩, hfind, hy⟩ := Option.map_eq_some_iff.1 hr
    obtain rfl : r' = r := by simpa using List.find?_some hfind
    obtain rfl : y = some (.ok ()) := hy
    simp only [Carries, hst']
    exact ⟨hf.handing hh rfl, hf.worker ▸ List.mem_of_find?_eq_some hfind⟩
  | failed _ hst' => simp only [Carries, hst']
  | beat hst' =>
    subst hst'
    exact h.of_handing (fun r hh => hf.handing hh rfl) fun x hx => hf.worker ▸ hx
  | leaving hst' =>
    unfold ConnState.leaves at hst'
    unfold Carries
    split at hst' <;> simp_all

theorem Carries.step [GrowthRng] {ev : Event} (h : ∀ c, t.sys.conns k = some c → Carries t P c) (hsound : Sound t.sys)
    (hk : KeepsCapture k ev) (hs : ledgerStep cfg t ev = some t') : ∀ c, t'.sys.conns k = some c → Carries t' P c := by
  obtain ⟨s', hstep, rfl⟩ := Option.map_eq_some_iff.1 hs
  intro c hc
  cases ev with
  | map ev =>
    obtain ⟨hf, hkept⟩ := mapStep_frame hstep
    have hsame : s'.conns k = t.sys.conns k := by
      cases hent : ev.entering with
      | none => rw [(hkept hent).1]
      | some x =>
        have hne := hk x hent
        cases ev <;> cases hent
        obtain ⟨_, hconns, _⟩ := enterPlayer_spec hstep
        rw [hconns, Function.update_of_ne (Ne.symm hne)]
    refine (h c (hsame ▸ hc)).of_handing (fun r hh => hf.handing hh rfl) fun x hx => ?_
    rw [hf.worker]
    exact hx
  | conn k' ev =>
    obtain ⟨c0, hc0, hstep⟩ := Option.bind_eq_some_iff.1 hstep
    by_cases hid : k' = k
    · subst hid
      exact (h c0 hc0).own_step hsound hc0 (by rintro now pos mapKey localPos rfl; exact hk rfl) hstep hc
    · have hf := connStep_frame hc0 hstep
      refine (h c ((hf.conns k (Ne.symm hid)) ▸ hc)).of_handing (fun r hh => hf.handing hh rfl) fun x hx => ?_
      rw [hf.worker]
      exact hx
  | task ev =>
    obtain ⟨wev, hf⟩ := taskStep_frame hstep
    refine (h c (hf.conns ▸ hc)).of_handing (fun r hh => hh.task hsound.own hstep) fun x hx => ?_
    obtain ⟨_, rs, hrs, _⟩ := workerStep_spec hf.worker hsound.own
    rw [hrs]
    exact List.mem_append_left _ hx

end

/-! ## What the map does in between -/

/-- What a kill is worth to the player, if anything. -/
def LivePlayer.expReward (rules : PlayerStatRules) (p : LivePlayer) (reward : MobExpReward) :
    Option PlayerMobExpRewardOutcome :=
  rules.applyMobExpReward ⟨p.progression.level, clampI64ToU32 p.progression.expInLevel,
    (clampInt 0 i32Max (p.stats.readPacket .nextExp)).toNat⟩ reward.level reward.baseExp

/-- A core-stat intent passes its validation and its save finds room in the queue. -/
def System.accepts (cfg : Config) (s : System) (p : MapPlayer) (stat : CoreStatKind) (delta : Int) : Bool :=
  p.pendingFlush.isNone && !s.full cfg &&
    match validateCoreStatIntent cfg.rules p.live stat delta with
    | some (.ok _) => true
    | _ => false

/-- The event neither rewards the player with experience nor moves one of its points. -/
def Undisturbed (cfg : Config) (id : PlayerId) (netId : Nat) (t : Ledger) : Event → Prop
  | .map (.reward id' reward) =>
    id' = id → ∀ p ∈ t.sys.activePlayer id netId, LivePlayer.expReward cfg.rules p.live reward = none
  | .map (.coreStat id' stat delta _ _) =>
    id' = id → ∀ p ∈ t.sys.activePlayer id netId, t.sys.accepts cfg p stat delta = false
  | _ => True

instance (cfg : Config) (id : PlayerId) (netId : Nat) (t : Ledger) (ev : Event) :
    Decidable (Undisturbed cfg id netId t ev) :=
  match ev with
  | .map (.reward _ _) => inferInstanceAs (Decidable (_ = _ → ∀ _ ∈ _, _ = none))
  | .map (.coreStat _ _ _ _ _) => inferInstanceAs (Decidable (_ = _ → ∀ _ ∈ _, _ = false))
  | .map (.enter _ _ _ _ _ _) | .map (.finalizePendingSave _) | .map (.markDirty _) | .map (.autosave _ _ _) =>
    .isTrue trivial
  | .conn _ _ => .isTrue trivial
  | .task _ => .isTrue trivial

section
variable {cfg : Config} {s s' : System} {id : PlayerId} {netId : Nat}

theorem System.activePlayer_eq_some {p : MapPlayer} :
    s.activePlayer id netId = some p ↔ s.players id = some p ∧ p.netId = netId := by
  simp [System.activePlayer, Option.filter_eq_some_iff]

/-- The player's entity with the same progression. -/
theorem System.activePlayer_of_update {p q p' : MapPlayer} {id' : PlayerId} (h : s.players id' = some p)
    (hp' : s'.activePlayer id netId = some p') (hs : s'.players = Function.update s.players id' (some q))
    (hn : q.netId = p.netId) (hprog : id' = id → p.netId = netId → q.live.progression = p.live.progression) :
    ∃ p0, s.activePlayer id netId = some p0 ∧ p'.live.progression = p0.live.progression := by
  obtain ⟨hp', hnet⟩ := System.activePlayer_eq_some.1 hp'
  rw [hs] at hp'
  by_cases hid : id = id'
  · subst hid
    rw [Function.update_self] at hp'
    cases hp'
    exact ⟨p, System.activePlayer_eq_some.2 ⟨h, hn.symm.trans hnet⟩, hprog rfl (hn.symm.trans hnet)⟩
  · rw [Function.update_of_ne hid] at hp'
    exact ⟨p', System.activePlayer_eq_some.2 ⟨hp', hnet⟩, rfl⟩

theorem mapStep_progression [GrowthRng] {t : Ledger} {ev : MapEvent} {p' : MapPlayer}
    (hu : Undisturbed cfg id netId t (.map ev)) (hnet : netId < t.sys.nextNetId) (hs : mapStep cfg t.sys ev = some s')
    (hp' : s'.activePlayer id netId = some p') :
    ∃ p, t.sys.activePlayer id netId = some p ∧ p'.live.progression = p.live.progression := by
  cases ev with
  | enter k username b epoch playtime now =>
    obtain ⟨⟨q, hplayers, hqnet, _⟩, _⟩ := enterPlayer_spec hs
    obtain ⟨hp', hn⟩ := System.activePlayer_eq_some.1 hp'
    rw [hplayers] at hp'
    by_cases hid : id = b.playerId
    · subst hid
      rw [Function.update_self] at hp'
      cases hp'
      omega
    · rw [Function.update_of_ne hid] at hp'
      exact ⟨p', System.activePlayer_eq_some.2 ⟨hp', hn⟩, rfl⟩
  | reward id' reward =>
    obtain ⟨p, hp, hs⟩ := Option.bind_eq_some_iff.1 hs
    obtain ⟨r, hr, rfl⟩ := Option.map_eq_some_iff.1 hs
    have hkept : id' = id → p.netId = netId → r.2.progression = p.live.progression := by
      intro hid hn
      have hnone := hu hid p (System.activePlayer_eq_some.2 ⟨hid ▸ hp, hn⟩)
      unfold LivePlayer.expReward at hnone
      simp only [applyPlayerExpReward, hnone, Option.some.injEq] at hr
      rw [← hr]
    split at hp'
    · exact System.activePlayer_of_update hp hp' rfl rfl hkept
    · exact System.activePlayer_of_update hp hp' rfl rfl hkept
  | coreStat id' stat delta now pos =>
    obtain ⟨p, hp, hs⟩ := Option.bind_eq_some_iff.1 hs
    split at hs
    · cases hs
    · rename_i hpending
      split at hs
      · cases hs
      · cases hs
        exact ⟨p', hp', rfl⟩
      · rename_i validated hval
        split at hs
        · cases hs
          exact ⟨p', hp', rfl⟩
        · rename_i hfull
          have hno : id' = id → p.netId = netId → False := by
            intro hid hn
            have hrefused := hu hid p (System.activePlayer_eq_some.2 ⟨hid ▸ hp, hn⟩)
            simp only [System.accepts, hval] at hrefused
            simp_all
          obtain ⟨r, _, rfl⟩ := Option.map_eq_some_iff.1 hs
          split at hp'
          all_goals exact System.activePlayer_of_update hp hp' rfl rfl fun hid hn => (hno hid hn).elim
  | finalizePendingSave id' =>
    obtain ⟨p, hp, hs⟩ := Option.bind_eq_some_iff.1 hs
    obtain ⟨reply, _, hs⟩ := Option.bind_eq_some_iff.1 hs
    split at hs
    · cases hs
    all_goals
      cases hs
      exact System.activePlayer_of_update hp hp' rfl rfl fun _ _ => rfl
  | markDirty id' =>
    obtain ⟨p, hp, rfl⟩ := Option.map_eq_some_iff.1 hs
    exact System.activePlayer_of_update hp hp' rfl rfl fun _ _ => rfl
  | autosave id' now pos =>
    obtain ⟨p, hp, hs⟩ := Option.bind_eq_some_iff.1 hs
    split at hs
    · cases hs
    · split at hs
      · cases hs
        exact System.activePlayer_of_update hp hp' rfl rfl fun _ _ => rfl
      · split at hs
        · cases hs
          exact System.activePlayer_of_update hp hp' rfl rfl fun _ _ => rfl
        · cases hs
          exact System.activePlayer_of_update hp hp' rfl rfl fun _ _ => rfl

/-- While the player is undisturbed, the map holds one progression for it. -/
theorem ledgerStep_progression [GrowthRng] {t t' : Ledger} {ev : Event} {p' : MapPlayer}
    (hu : Undisturbed cfg id netId t ev) (hnet : netId < t.sys.nextNetId) (hs : ledgerStep cfg t ev = some t')
    (hp' : t'.sys.activePlayer id netId = some p') :
    ∃ p, t.sys.activePlayer id netId = some p ∧ p'.live.progression = p.live.progression := by
  obtain ⟨s', hstep, rfl⟩ := Option.map_eq_some_iff.1 hs
  cases ev with
  | map ev => exact mapStep_progression hu hnet hstep hp'
  | conn k ev =>
    obtain ⟨c, hc, hstep⟩ := Option.bind_eq_some_iff.1 hstep
    obtain ⟨hplayer, hn⟩ := System.activePlayer_eq_some.1 hp'
    rcases (connStep_frame hc hstep).players id with hsame | ⟨_, hgone⟩
    · exact ⟨p', System.activePlayer_eq_some.2 ⟨hsame ▸ hplayer, hn⟩, rfl⟩
    · exact absurd (hgone.symm.trans hplayer) (by simp)
  | task ev =>
    obtain ⟨wev, hf⟩ := taskStep_frame hstep
    obtain ⟨hplayer, hn⟩ := System.activePlayer_eq_some.1 hp'
    exact ⟨p', System.activePlayer_eq_some.2 ⟨hf.players ▸ hplayer, hn⟩, rfl⟩

end

/-! ## From the capture to the leave -/

section
variable {cfg : Config} {k : Connection} {id : PlayerId} {netId : Nat}

/-- The capture takes the progression that the map holds, or there is no handoff. -/
theorem connStep_capture {s s' : System} {c c' : InGame} {now : Nat} {pos localPos : LocalPos} {mapKey : String}
    (hs : connStep cfg s k c (.capture now pos mapKey localPos) = some s') (hc' : s'.conns k = some c') :
    c'.state = .playing ∨ ∃ p x, s'.activePlayer c.playerId c.netId = some p ∧ c'.state = .exiting .handoff x ∧
      x.snapshot.progression = playerProgressionSnapshot p.live.progression := by
  simp only [connStep] at hs
  split at hs
  · split at hs
    · rename_i p hp
      cases hs
      simp only [System.setConn_self, Option.some.injEq] at hc'
      subst hc'
      exact .inr ⟨p, _, hp, rfl, rfl⟩
    · cases hs
      exact .inl (exitFailed_conn hc').2
  · cases hs

variable [GrowthRng]

/-- A connection that does not enter again stays with its entity. -/
theorem systemStep_conn {s s' : System} {ev : Event} {c' : InGame} (hk : KeepsCapture k ev)
    (hs : systemStep cfg s ev = some s') (hc' : s'.conns k = some c') :
    ∃ c, s.conns k = some c ∧ c'.playerId = c.playerId ∧ c'.netId = c.netId := by
  cases ev with
  | map ev =>
    obtain ⟨_, hkept⟩ := mapStep_frame hs
    cases hent : ev.entering with
    | none => exact ⟨c', (hkept hent).1 ▸ hc', rfl, rfl⟩
    | some x =>
      have hne := hk x hent
      cases ev <;> cases hent
      obtain ⟨_, hconns, _⟩ := enterPlayer_spec hs
      rw [hconns, Function.update_of_ne (Ne.symm hne)] at hc'
      exact ⟨c', hc', rfl, rfl⟩
  | conn k' ev =>
    obtain ⟨c, hc, hs⟩ := Option.bind_eq_some_iff.1 hs
    have hf := connStep_frame hc hs
    by_cases hid : k' = k
    · subst hid
      obtain ⟨_, hplayer, hnet, _⟩ := hf.entry c' hc'
      exact ⟨c, hc, hplayer, hnet⟩
    · exact ⟨c', hf.conns k (Ne.symm hid) ▸ hc', rfl, rfl⟩
  | task ev =>
    obtain ⟨wev, hf⟩ := taskStep_frame hs
    exact ⟨c', hf.conns ▸ hc', rfl, rfl⟩

theorem systemStep_nextNetId {s s' : System} {ev : Event} (hs : systemStep cfg s ev = some s') :
    s.nextNetId ≤ s'.nextNetId := by
  cases ev with
  | map ev => exact (mapStep_frame hs).1.nextNetId
  | conn k ev =>
    obtain ⟨c, hc, hs⟩ := Option.bind_eq_some_iff.1 hs
    exact (connStep_frame hc hs).nextNetId.ge
  | task ev =>
    obtain ⟨wev, hf⟩ := taskStep_frame hs
    exact hf.nextNetId.ge

theorem run_sound {db : GameDb} {t : Ledger} {es : List Event} (hr : run (ledgerStep cfg) (.start db) es = some t) :
    Sound t.sys := by
  refine run_inv (I := fun t : Ledger => Sound t.sys) (fun t ev t' hI hs => ?_) (sound_start db) hr
  obtain ⟨s', hstep, rfl⟩ := Option.map_eq_some_iff.1 hs
  exact hI.step hstep

/-- The map's side: what it holds at the end it held at the beginning. -/
theorem run_progression {t t' : Ledger} {es : List Event} {p' : MapPlayer} (hnet : netId < t.sys.nextNetId)
    (hu : Meets (ledgerStep cfg) (Undisturbed cfg id netId) t es) (hr : run (ledgerStep cfg) t es = some t')
    (hp' : t'.sys.activePlayer id netId = some p') :
    ∃ p, t.sys.activePlayer id netId = some p ∧ p'.live.progression = p.live.progression := by
  have hinv : netId < t'.sys.nextNetId ∧ ∀ p', t'.sys.activePlayer id netId = some p' →
      ∃ p, t.sys.activePlayer id netId = some p ∧ p'.live.progression = p.live.progression := by
    refine run_inv_of_meets (I := fun t' : Ledger => netId < t'.sys.nextNetId ∧ ∀ p',
      t'.sys.activePlayer id netId = some p' →
      ∃ p, t.sys.activePlayer id netId = some p ∧ p'.live.progression = p.live.progression) ?_
        ⟨hnet, fun p hp => ⟨p, hp, rfl⟩⟩ hu hr
    rintro u ev u' ⟨hlt, hsame⟩ hC hs
    refine ⟨?_, fun p' hp' => ?_⟩
    · obtain ⟨s', hstep, rfl⟩ := Option.map_eq_some_iff.1 hs
      exact lt_of_lt_of_le hlt (systemStep_nextNetId hstep)
    · obtain ⟨q, hq, hqp⟩ := ledgerStep_progression hC hlt hs hp'
      obtain ⟨p, hp, hpp⟩ := hsame q hq
      exact ⟨p, hp, hqp.trans hpp⟩
  exact hinv.2 p' hp'

/-- The connection's side: it stays with its entity, -/
theorem run_entity {t t' : Ledger} {es : List Event}
    (hc : ∀ c, t.sys.conns k = some c → c.playerId = id ∧ c.netId = netId) (hk : ∀ ev ∈ es, KeepsCapture k ev)
    (hr : run (ledgerStep cfg) t es = some t') :
    ∀ c, t'.sys.conns k = some c → c.playerId = id ∧ c.netId = netId := by
  refine run_inv_of_meets (I := fun t' : Ledger => ∀ c, t'.sys.conns k = some c → c.playerId = id ∧ c.netId = netId)
    (fun u ev u' hI hC hs c hc => ?_) hc (.of_forall hk) hr
  obtain ⟨s', hstep, rfl⟩ := Option.map_eq_some_iff.1 hs
  obtain ⟨c0, hc0, hplayer, hn⟩ := systemStep_conn hC hstep hc
  exact ⟨hplayer.trans (hI c0 hc0).1, hn.trans (hI c0 hc0).2⟩

/-- and what it hands over is what it has captured. -/
theorem run_carries {t t' : Ledger} {P : PlayerProgressionSnapshot} {es : List Event} (hsound : Sound t.sys)
    (hc : ∀ c, t.sys.conns k = some c → Carries t P c) (hk : ∀ ev ∈ es, KeepsCapture k ev)
    (hr : run (ledgerStep cfg) t es = some t') : ∀ c, t'.sys.conns k = some c → Carries t' P c := by
  have hinv : Sound t'.sys ∧ ∀ c, t'.sys.conns k = some c → Carries t' P c := by
    refine run_inv_of_meets (I := fun t' : Ledger => Sound t'.sys ∧ ∀ c, t'.sys.conns k = some c → Carries t' P c)
      ?_ ⟨hsound, hc⟩ (.of_forall hk) hr
    rintro u ev u' ⟨hsu, hcu⟩ hC hs
    have hcar := Carries.step hcu hsu hC hs
    obtain ⟨s', hstep, rfl⟩ := Option.map_eq_some_iff.1 hs
    exact ⟨hsu.step hstep, hcar⟩
  exact hinv.2

/-- A handoff captures its snapshot, and from there on the map neither rewards the player with experience nor accepts
one of its core-stat intents. When the handoff has succeeded and the player is about to leave, its exit has stored the
progression that the map holds, whatever else the map, the other connections and the worker have done. -/
theorem handoff_keeps_progress {db : GameDb} {pre mid : List Event} {t0 t1 t : Ledger} {now : Nat}
    {pos localPos : LocalPos} {mapKey : String} {c : InGame} {r : Reply} {q : MapPlayer}
    (hpre : run (ledgerStep cfg) (.start db) pre = some t0)
    (hcapture : ledgerStep cfg t0 (.conn k (.capture now pos mapKey localPos)) = some t1)
    (hrun : run (ledgerStep cfg) t1 mid = some t) (hkeeps : ∀ ev ∈ mid, KeepsCapture k ev)
    (hmeets : Meets (ledgerStep cfg) (Undisturbed cfg c.playerId c.netId) t1 mid) (hc : t.sys.conns k = some c)
    (hdone : c.state = .handedOff r) (hq : t.sys.activePlayer c.playerId c.netId = some q) :
    t.stored r = some (playerProgressionSnapshot q.live.progression) := by
  have hsound := run_sound hpre
  obtain ⟨s1, hstep, rfl⟩ := Option.map_eq_some_iff.1 hcapture
  have hsound1 := hsound.step hstep
  obtain ⟨c0, hc0, hstep⟩ := Option.bind_eq_some_iff.1 hstep
  have hf := connStep_frame hc0 hstep
  have hentry : ∀ c, s1.conns k = some c → c.playerId = c0.playerId ∧ c.netId = c0.netId :=
    fun c hc => ⟨(hf.entry c hc).2.1, (hf.entry c hc).2.2.1⟩
  obtain ⟨hplayer, hnet⟩ := run_entity hentry hkeeps hrun c hc
  rw [hplayer, hnet] at hmeets hq
  have hknown : c0.netId < s1.nextNetId := hf.nextNetId ▸ hsound.nets k c0 hc0
  obtain ⟨p, hp, hprog⟩ := run_progression hknown hmeets hrun hq
  -- the map's progression at the capture is the one that the snapshot carries
  have hcarries : ∀ c, s1.conns k = some c → Carries ⟨s1, t0.stored⟩
      (playerProgressionSnapshot p.live.progression) c := by
    intro c hc
    rcases connStep_capture hstep hc with hst | ⟨p', x, hp', hst, hx⟩
    · simp only [Carries, hst]
    · obtain rfl : p' = p := Option.some.inj (hp'.symm.trans hp)
      simp only [Carries, hst]
      exact hx
  have hfinal := run_carries hsound1 hcarries hkeeps hrun c hc
  simp only [Carries, hdone] at hfinal
  rw [hprog]
  exact hfinal.1.stored (.inr hfinal.2)

end

/-! ## The runs -/

def ConnState.handedOff? : ConnState → Option Reply
  | .handedOff reply => some reply
  | _ => none

theorem ConnState.handedOff?_eq_some {st : ConnState} {r : Reply} (h : st.handedOff? = some r) : st = .handedOff r := by
  cases st with
  | handedOff => exact congrArg _ (Option.some.inj h)
  | _ => cases h

def captureNovice : Event := .conn connA (.capture 10 ⟨0, 0⟩ "metin2_map_a1" ⟨0, 0⟩)

/-- The handoff runs to its reply while the map plays its own event. -/
def handoffEvents (ev : MapEvent) : List Event :=
  [.conn connA .send, .task .recv, .task (.dispatch [novice] 0), .map ev, .task (.exec 0 1 false none),
    .task (.joinNext 0 0),
   .conn connA .reply]

theorem handoff_keeps_progress_markDirty :
    let := splitMix64Rolls
    ∃ t q, run (ledgerStep noviceConfig) (.start loggedInDb)
        (enterNovice :: captureNovice :: handoffEvents (.markDirty novice)) = some t ∧
      t.sys.activePlayer novice 0 = some q ∧ t.stored 0 = some (playerProgressionSnapshot q.live.progression) := by
  intro rng
  have hstart : ((run (ledgerStep noviceConfig) (.start loggedInDb) [enterNovice]).bind fun t0 =>
      (ledgerStep noviceConfig t0 captureNovice).bind fun t1 =>
        (run (ledgerStep noviceConfig) t1 (handoffEvents (.markDirty novice))).bind fun t =>
          (t.sys.conns connA).bind fun c => (t.sys.activePlayer c.playerId c.netId).map fun _ =>
            (c.playerId, c.netId, c.state.handedOff?,
              decide (Meets (ledgerStep noviceConfig) (Undisturbed noviceConfig novice 0) t1
              (handoffEvents (.markDirty novice))))) =
      some (novice, 0, some 0, true) := by decide +kernel
  obtain ⟨t0, h0, hp⟩ := Option.bind_eq_some_iff.1 hstart
  obtain ⟨t1, h1, hp⟩ := Option.bind_eq_some_iff.1 hp
  obtain ⟨t, ht, hp⟩ := Option.bind_eq_some_iff.1 hp
  obtain ⟨c, hc, hp⟩ := Option.bind_eq_some_iff.1 hp
  obtain ⟨q, hq, hp⟩ := Option.map_eq_some_iff.1 hp
  simp only [Prod.mk.injEq, decide_eq_true_eq] at hp
  obtain ⟨hplayer, hnet, hstate, hmeets⟩ := hp
  have hdone : c.state = .handedOff 0 := ConnState.handedOff?_eq_some hstate
  have hrun : run (ledgerStep noviceConfig) (.start loggedInDb)
      (enterNovice :: captureNovice :: handoffEvents (.markDirty novice)) = some t := by
    rw [show enterNovice :: captureNovice :: handoffEvents (.markDirty novice) =
      [enterNovice] ++ captureNovice :: handoffEvents (.markDirty novice) from rfl, run_append, h0,
        Option.bind_some, run_cons, h1]
    exact ht
  refine ⟨t, q, hrun, by rw [← hplayer, ← hnet]; exact hq, ?_⟩
  refine handoff_keeps_progress h0 h1 ht (by decide) ?_ hc hdone hq
  rw [hplayer, hnet]
  exact hmeets

/-- A kill is rewarded between the capture and the leave: the exit has stored less experience than the player has
when the map removes it. -/
theorem handoff_keeps_progress_reward :
    let := splitMix64Rolls
    ∃ t q t', run (ledgerStep noviceConfig) (.start loggedInDb)
        (enterNovice :: captureNovice :: handoffEvents (.reward novice ⟨500, 3⟩)) = some t ∧
      (∀ ev ∈ handoffEvents (.reward novice ⟨500, 3⟩), KeepsCapture connA ev) ∧
      (∃ c, t.sys.conns connA = some c ∧ c.state = .handedOff 0) ∧ t.sys.activePlayer novice 0 = some q ∧
      ledgerStep noviceConfig t (.conn connA .playerLeave) = some t' ∧ t'.sys.players novice = none ∧
      (t'.stored 0).map PlayerProgressionSnapshot.expInLevel = some 0 ∧
      (playerProgressionSnapshot q.live.progression).expInLevel = 30 := by
  intro rng
  have hrun : ((run (ledgerStep noviceConfig) (.start loggedInDb)
      (enterNovice :: captureNovice :: handoffEvents (.reward novice ⟨500, 3⟩))).bind fun t =>
        (t.sys.conns connA).bind fun c => (t.sys.activePlayer novice 0).bind fun q =>
          (ledgerStep noviceConfig t (.conn connA .playerLeave)).map fun t' =>
            (c.state.handedOff?, (t'.sys.players novice).isNone,
              (t'.stored 0).map PlayerProgressionSnapshot.expInLevel,
              (playerProgressionSnapshot q.live.progression).expInLevel)) =
      some (some 0, true, some 0, 30) := by decide +kernel
  obtain ⟨t, ht, hp⟩ := Option.bind_eq_some_iff.1 hrun
  obtain ⟨c, hc, hp⟩ := Option.bind_eq_some_iff.1 hp
  obtain ⟨q, hq, hp⟩ := Option.bind_eq_some_iff.1 hp
  obtain ⟨t', ht', hp⟩ := Option.map_eq_some_iff.1 hp
  simp only [Prod.mk.injEq, Option.isNone_iff_eq_none] at hp
  obtain ⟨hstate, hgone, hstored, hexp⟩ := hp
  exact ⟨t, q, t', ht, by decide, ⟨c, hc, ConnState.handedOff?_eq_some hstate⟩, hq, ht', hgone, hstored, hexp⟩

end Zohar.Core
