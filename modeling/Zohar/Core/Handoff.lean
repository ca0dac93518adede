/-
A handoff that is reported as failed. `dispatch_handoff` gives up when the exit is refused, and also when the reply
does not come in time; in the second case the exit is still on its way, and may commit under a player who plays on.
One connection, one account and one player are watched here; whatever else the core does concerns others.
-/
import Zohar.Core.System
import Zohar.Db.Lease
import Zohar.Db.Takeover
import Zohar.Persistence.Replies
import Zohar.Sim.Relog

namespace Zohar.Core

open Zohar.Lib Zohar.Db Zohar.Persistence Zohar.Stats Zohar.Sim

/-! ## Ownership -/

/-- The session of the account is held by the connection, and the player's rows carry the epoch. -/
structure Owns (db : GameDb) (k : Connection) (u : String) (p : PlayerId) (e : PlayerRuntimeEpoch) : Prop where
  session : ∃ r, db.sessions u = some r ∧ r.heldBy k
  epoch : db.storedEpoch p = some e
  progression : (db.progression p).isSome

section
variable {db db' : GameDb} {k : Connection} {u : String} {p : PlayerId} {e : PlayerRuntimeEpoch}

theorem Owns.of_rows (h : Owns db k u p e) (hs : db'.sessions u = db.sessions u) (hr : db'.runtime p = db.runtime p)
    (hq : db'.progression p = db.progression p) : Owns db' k u p e :=
  ⟨hs ▸ h.session, by rw [GameDb.storedEpoch, hr]; exact h.epoch, hq ▸ h.progression⟩

theorem Owns.heartbeat (h : Owns db k u p e) (now : Int) (u' : String) :
    Owns (updateSessionHeartbeat now u' db) k u p e := by
  unfold updateSessionHeartbeat
  split
  · rename_i r hrow
    split
    · refine ⟨?_, h.epoch, h.progression⟩
      by_cases hu : u = u'
      · subst hu
        obtain ⟨r', hr', hheld⟩ := h.session
        rw [hrow] at hr'
        cases hr'
        exact ⟨_, GameDb.setSession_sessions_self .., hheld⟩
      · rw [GameDb.setSession_sessions_of_ne _ _ hu]
        exact h.session
    · exact h
  · exact h

theorem Owns.release (h : Owns db k u p e) {u' : String} (hu : u' ≠ u) (sid cid : String) :
    Owns (releaseSession u' sid cid db).2 k u p e := by
  unfold releaseSession releaseStatement
  dsimp only
  split
  · split
    · exact h.of_rows (GameDb.setSession_sessions_of_ne _ _ (Ne.symm hu)) rfl rfl
    · exact h
  · exact h

theorem Owns.save (h : Owns db k u p e) (now : Int) (fault : Bool) (s : PlayerSnapshot) :
    Owns (savePlayerSnapshot now fault s db).2 k u p e := by
  have hs : (savePlayerSnapshot now fault s db).2.sessions = db.sessions := savePlayerSnapshot_sessions now db fault s
  obtain ⟨he, hq⟩ := savePlayerSnapshot_keeps now fault s db p
  exact ⟨hs ▸ h.session, he.trans h.epoch, hq.trans h.progression⟩

/-- An exit of another player under another account. -/
theorem Owns.exit (h : Owns db k u p e) {s : PlayerSnapshot} {u' : String} (hid : s.playerId ≠ p) (hu : u' ≠ u)
    (now : Int) (fault : Option ExitStage) (kind : PlayerExitKind) (sid cid : String) :
    Owns (commitPlayerExit now fault kind u' sid cid s db).2 k u p e := by
  cases hok : (commitPlayerExit now fault kind u' sid cid s db).1 with
  | error err =>
    rw [commitPlayerExit_error hok]
    exact h
  | ok _ =>
    obtain ⟨_, r, q, row, _, _, _, _, _, heq⟩ := commitPlayerExit_ok hok
    rw [heq]
    refine h.of_rows (GameDb.setSession_sessions_of_ne _ _ (Ne.symm hu)) ?_ ?_ <;> simp [Ne.symm hid]

end

/-! ## Where a reply channel is -/

def System.queued (s : System) (r : Reply) : Nat := (s.queue.filterMap PlayerPersistenceRequest.reply).count r

/-- Nobody knows a reply channel that is yet to be made. -/
def Fresh (s : System) : Prop :=
  ∀ r, s.nextReply ≤ r → s.queued r = 0 ∧ (∀ id, s.worker.held id r = 0) ∧ answers s.worker.replies r = 0

/-- The reply channel is in one place at most: with a request of the player, or answered. -/
structure OnlyAt (s : System) (p : PlayerId) (r : Reply) : Prop where
  elsewhere : ∀ id, id ≠ p → s.worker.held id r = 0
  queue : ∀ q ∈ s.queue, q.reply = some r → q.playerId = p
  once : s.queued r + s.worker.held p r + answers s.worker.replies r ≤ 1

section
variable {s s' : System} {p : PlayerId} {r : Reply}

theorem queued_of_push {request : PlayerPersistenceRequest} (hq : s'.queue = s.queue ++ [request]) (r : Reply) :
    s'.queued r = s.queued r + request.reply.toList.count r := by
  rw [System.queued, hq, List.filterMap_append, List.count_append]
  cases h : request.reply <;> simp [h, System.queued]

theorem queued_pos {q : PlayerPersistenceRequest} (hq : q ∈ s.queue) (hr : q.reply = some r) : 0 < s.queued r :=
  List.count_pos_iff.2 (List.mem_filterMap.2 ⟨q, hq, hr⟩)

theorem Fresh.push {request : PlayerPersistenceRequest} (h : Fresh s) (hw : s'.worker = s.worker)
    (hq : s'.queue = s.queue ++ [request]) (hn : s.nextReply ≤ s'.nextReply)
    (hr : ∀ r, request.reply = some r → r < s'.nextReply) : Fresh s' := by
  intro r hle
  obtain ⟨h1, h2, h3⟩ := h r (le_trans hn hle)
  refine ⟨?_, hw ▸ h2, hw ▸ h3⟩
  rw [queued_of_push hq, h1]
  cases hreq : request.reply with
  | none => rfl
  | some r' =>
    have hne : r' ≠ r := ne_of_lt (lt_of_lt_of_le (hr r' hreq) hle)
    simp [hne]

theorem Fresh.of_eq (h : Fresh s) (hw : s'.worker = s.worker) (hq : s'.queue = s.queue)
    (hn : s'.nextReply = s.nextReply) :
    Fresh s' := by
  intro r hle
  obtain ⟨h1, h2, h3⟩ := h r (hn ▸ hle)
  exact ⟨by rw [System.queued, hq]; exact h1, hw ▸ h2, hw ▸ h3⟩

theorem OnlyAt.push {request : PlayerPersistenceRequest} (h : OnlyAt s p r) (hw : s'.worker = s.worker)
    (hq : s'.queue = s.queue ++ [request]) (hr : request.reply ≠ some r) : OnlyAt s' p r := by
  refine ⟨hw ▸ h.elsewhere, ?_, ?_⟩
  · intro q hmem hreply
    rw [hq] at hmem
    rcases List.mem_append.1 hmem with hmem | hmem
    · exact h.queue q hmem hreply
    · obtain rfl := List.mem_singleton.1 hmem
      exact absurd hreply hr
  · have hzero : request.reply.toList.count r = 0 := by
      cases hreq : request.reply with
      | none => rfl
      | some r' =>
        have hne : r' ≠ r := fun he => hr (by rw [hreq, he])
        simp [hne]
    rw [queued_of_push hq, hw, hzero]
    exact h.once

theorem OnlyAt.of_eq (h : OnlyAt s p r) (hw : s'.worker = s.worker) (hq : s'.queue = s.queue) : OnlyAt s' p r :=
  ⟨hw ▸ h.elsewhere, hq ▸ h.queue, by rw [System.queued, hq, hw]; exact h.once⟩

/-- The request that brings a new reply channel is the only place that has it. -/
theorem Fresh.onlyAt {request : PlayerPersistenceRequest} (h : Fresh s) (hw : s'.worker = s.worker)
    (hq : s'.queue = s.queue ++ [request]) (hr : request.reply = some s.nextReply) (hp : request.playerId = p) :
    OnlyAt s' p s.nextReply := by
  obtain ⟨h1, h2, h3⟩ := h s.nextReply le_rfl
  refine ⟨fun id _ => hw ▸ h2 id, ?_, ?_⟩
  · intro q hmem hreply
    rw [hq] at hmem
    rcases List.mem_append.1 hmem with hmem | hmem
    · have hpos := queued_pos hmem hreply
      omega
    · obtain rfl := List.mem_singleton.1 hmem
      exact hp
  · rw [queued_of_push hq, hw, h1, h2 p, h3, hr]
    simp

/-- A step of the worker moves a reply channel within its player's requests, from the queue or to the answers. -/
structure ReplyStep (s s' : System) (r : Reply) (p : PlayerId) : Prop where
  others : ∀ id, id ≠ p → s'.worker.held id r = s.worker.held id r
  total : s'.queued r + s'.worker.held p r + answers s'.worker.replies r =
    s.queued r + s.worker.held p r + answers s.worker.replies r
  answered : answers s.worker.replies r ≤ answers s'.worker.replies r
  queue : s'.queued r = s.queued r ∨ ∃ q ∈ s.queue, q.reply = some r ∧ q.playerId = p

theorem taskStep_replies {ev : TaskEvent} (h : taskStep s ev = some s') (hown : s.worker.Own) (r : Reply) :
    s'.nextReply = s.nextReply ∧ (∀ q ∈ s'.queue, q ∈ s.queue) ∧ ∃ p, ReplyStep s s' r p := by
  have hrest : ∀ {ev : WorkerEvent} {w : Worker} {db : GameDb}, workerStep s.worker ev = some w →
      (∀ request, ev ≠ .recv request) → ∃ p, ReplyStep s { s with worker := w, db } r p := by
    intro ev w db hw hne
    obtain ⟨p, _, h1, h2, h3⟩ := workerStep_replies hw hown r
    have harr : ev.arriving = [] := by cases ev <;> first | rfl | exact absurd rfl (hne _)
    rw [harr, List.count_nil] at h2
    exact ⟨p, h1, by simp only [System.queued]; omega, h3, .inl rfl⟩
  cases ev with
  | recv =>
    simp only [taskStep] at h
    split at h
    · cases h
    · rename_i request rest hq
      obtain ⟨w, hw, rfl⟩ := Option.map_eq_some_iff.1 h
      obtain ⟨p, hp, h1, h2, h3⟩ := workerStep_replies hw hown r
      obtain rfl := hp request rfl
      have hcount : s.queued r = request.reply.toList.count r +
          (rest.filterMap PlayerPersistenceRequest.reply).count r := by
        rw [System.queued, hq, List.filterMap_cons]
        cases request.reply <;> simp [List.count_cons, Nat.add_comm]
      refine ⟨rfl, fun q hmem => by rw [hq]; exact List.mem_cons_of_mem _ hmem, request.playerId, h1, ?_, h3, ?_⟩
      · simp only [WorkerEvent.arriving] at h2
        rw [hcount]
        simp only [System.queued]
        omega
      · by_cases hr : request.reply = some r
        · exact .inr ⟨request, by rw [hq]; exact List.mem_cons_self, hr, rfl⟩
        · refine .inl ?_
          have hzero : request.reply.toList.count r = 0 := by
            cases hreq : request.reply with
            | none => rfl
            | some r' =>
              have hne : r' ≠ r := fun he => hr (by rw [hreq, he])
              simp [hne]
          rw [hcount, hzero, Nat.zero_add]
          rfl
  | dispatch order now =>
    obtain ⟨w, hw, rfl⟩ := Option.map_eq_some_iff.1 h
    exact ⟨rfl, fun _ hq => hq, hrest hw (by rintro _ ⟨⟩)⟩
  | exec i now fault exitFault =>
    obtain ⟨task, _, h⟩ := Option.bind_eq_some_iff.1 h
    obtain ⟨w, hw, rfl⟩ := Option.map_eq_some_iff.1 h
    exact ⟨rfl, fun _ hq => hq, hrest hw (by rintro _ ⟨⟩)⟩
  | joinNext i now =>
    obtain ⟨w, hw, rfl⟩ := Option.map_eq_some_iff.1 h
    exact ⟨rfl, fun _ hq => hq, hrest hw (by rintro _ ⟨⟩)⟩

theorem MapFrame.fresh (hf : MapFrame s s') (h : Fresh s) : Fresh s' := by
  rcases hf.queue with ⟨hq, hn⟩ | ⟨save, hq, ⟨hr, hn⟩ | ⟨hr, hn⟩⟩
  · exact h.of_eq hf.worker hq hn
  · exact h.push hf.worker hq hn.ge (by rintro r hr'; simp [PlayerPersistenceRequest.reply, hr] at hr')
  · refine h.push hf.worker hq (by omega) ?_
    intro r hr'
    obtain rfl : s.nextReply = r := Option.some.inj (hr.symm.trans hr')
    rw [hn]
    exact Nat.lt_succ_self _

theorem ConnFrame.fresh {k : Connection} {c : InGame} (hf : ConnFrame s s' k c) (h : Fresh s) : Fresh s' := by
  rcases hf.queue with ⟨hq, hn⟩ | ⟨request, hq, _, hr, hn, _⟩
  · exact h.of_eq hf.worker hq hn
  · refine h.push hf.worker hq (by omega) ?_
    intro r hr'
    obtain rfl : s.nextReply = r := Option.some.inj (hr.symm.trans hr')
    rw [hn]
    exact Nat.lt_succ_self _

theorem Fresh.task {ev : TaskEvent} (h : Fresh s) (hown : s.worker.Own) (hs : taskStep s ev = some s') : Fresh s' := by
  intro r hle
  obtain ⟨hn, _, p, h1, h2, h3, _⟩ := taskStep_replies hs hown r
  obtain ⟨hq, hh, ha⟩ := h r (hn ▸ hle)
  have hp := hh p
  refine ⟨by omega, fun id => ?_, by omega⟩
  by_cases hid : id = p
  · subst hid
    omega
  · rw [h1 id hid, hh id]

theorem OnlyAt.task {ev : TaskEvent} (h : OnlyAt s p r) (hown : s.worker.Own) (hs : taskStep s ev = some s') :
    OnlyAt s' p r := by
  obtain ⟨_, hqueue, p', h1, h2, h3, h4⟩ := taskStep_replies hs hown r
  have honce := h.once
  by_cases hp : p' = p
  · subst hp
    exact ⟨fun id hid => (h1 id hid).trans (h.elsewhere id hid), fun q hq => h.queue q (hqueue q hq), by omega⟩
  · have hzero := h.elsewhere p' hp
    have hkeep := h1 p (Ne.symm hp)
    -- the request that came in is another player's
    have hq : s'.queued r = s.queued r := by
      rcases h4 with h4 | ⟨q, hq, hr, rfl⟩
      · exact h4
      · exact absurd (h.queue q hq hr) hp
    refine ⟨fun id hid => ?_, fun q hq => h.queue q (hqueue q hq), by omega⟩
    by_cases hid' : id = p'
    · subst hid'
      omega
    · exact (h1 id hid').trans (h.elsewhere id hid)

end

/-! ## Everybody else -/

def System.HasExit (s : System) (exit : PendingExit) : Prop := .commitPlayerExit exit ∈ s.queue ∨ s.worker.HasExit exit

section
variable {s s' : System} {exit : PendingExit}

theorem MapFrame.hasExit (hf : MapFrame s s') (h : s'.HasExit exit) : s.HasExit exit := by
  rcases h with hmem | hw
  · rcases hf.queue with ⟨hq, _⟩ | ⟨save, hq, _⟩
    · exact .inl (hq ▸ hmem)
    · rw [hq] at hmem
      rcases List.mem_append.1 hmem with hmem | hmem
      · exact .inl hmem
      · cases List.mem_singleton.1 hmem
  · exact .inr (hf.worker ▸ hw)

theorem ConnFrame.hasExit {k : Connection} {c : InGame} (hf : ConnFrame s s' k c) (h : s'.HasExit exit) :
    s.HasExit exit ∨ c.state.snapshot = some exit.snapshot ∧ exit.username = c.username ∧ exit.reply = s.nextReply := by
  rcases h with hmem | hw
  · rcases hf.queue with ⟨hq, _⟩ | ⟨request, hq, hsnap, hreply, _, huser⟩
    · exact .inl (.inl (hq ▸ hmem))
    · rw [hq] at hmem
      rcases List.mem_append.1 hmem with hmem | hmem
      · exact .inl (.inl hmem)
      · obtain rfl := List.mem_singleton.1 hmem
        exact .inr ⟨hsnap, huser exit rfl, Option.some.inj hreply⟩
  · exact .inl (.inr (hf.worker ▸ hw))

theorem taskStep_hasExit {ev : TaskEvent} (hs : taskStep s ev = some s') (hown : s.worker.Own) (h : s'.HasExit exit) :
    s.HasExit exit := by
  obtain ⟨wev, hf⟩ := taskStep_frame hs
  rcases h with hmem | hex
  · exact .inl ((taskStep_replies hs hown 0).2.1 _ hmem)
  · rcases workerStep_hasExit hf.worker hown hex with hex | hev
    · exact .inr hex
    · exact .inl (hf.request _ hev)

end

/-- Whoever enters is the watched connection with its account and player, or differs in all three. -/
def Apart.Enters (k : Connection) (u : String) (p : PlayerId) : Event → Prop
  | .map ev => ∀ x ∈ ev.entering, x = (k, u, p) ∨ (x.1 ≠ k ∧ x.2.1 ≠ u ∧ x.2.2 ≠ p)
  | _ => True

/-- What is known of a connection's entry. -/
structure Apart.Entry (k : Connection) (u : String) (p : PlayerId) (k' : Connection) (c : InGame) : Prop where
  mine : k' = k → c.username = u ∧ c.playerId = p
  others : k' ≠ k → c.username ≠ u ∧ c.playerId ≠ p
  snapshot : ∀ x, c.state.snapshot = some x → x.playerId = c.playerId

/-- Nobody but the watched connection works for the account or the player. -/
structure Apart (k : Connection) (u : String) (p : PlayerId) (s : System) : Prop where
  own : s.worker.Own
  ok : ∀ id, LaneOk (s.worker.lane id) (s.worker.tasks id)
  fresh : Fresh s
  conns : ∀ k' c, s.conns k' = some c → Apart.Entry k u p k' c
  exits : ∀ exit, s.HasExit exit → exit.snapshot.playerId ≠ p → exit.username ≠ u

section
variable {cfg : Config} {k : Connection} {u : String} {p : PlayerId} {s s' : System}

theorem apart_start (k : Connection) (u : String) (p : PlayerId) (db : GameDb) : Apart k u p (.start db) where
  own := Worker.own_new
  ok := fun id => ⟨by rintro ⟨⟩, .inl rfl⟩
  fresh := fun r _ => ⟨rfl, fun id => rfl, rfl⟩
  conns := by rintro _ _ ⟨⟩
  exits := by
    rintro exit (hmem | ⟨id, hl | ⟨t, ht, _⟩⟩)
    · cases hmem
    · cases hl
    · cases ht

theorem Apart.map [GrowthRng] {ev : MapEvent} (h : Apart k u p s) (he : Apart.Enters k u p (.map ev))
    (hs : mapStep cfg s ev = some s') :
    Apart k u p s' := by
  obtain ⟨hf, hkept⟩ := mapStep_frame hs
  refine ⟨hf.worker ▸ h.own, hf.worker ▸ h.ok, hf.fresh h.fresh, ?_, fun exit hex => h.exits exit (hf.hasExit hex)⟩
  cases hent : ev.entering with
  | none =>
    rw [(hkept hent).1]
    exact h.conns
  | some x =>
    have hwho := he x hent
    cases ev <;> cases hent
    obtain ⟨_, hconns, _⟩ := enterPlayer_spec hs
    intro k' c hc
    rw [hconns] at hc
    simp only [Function.update_apply] at hc
    split at hc
    · rename_i hk
      cases hc
      refine ⟨fun hk' => ?_, fun hk' => ?_, by rintro _ ⟨⟩⟩
      · rcases hwho with hwho | ⟨hwho, _⟩
        · cases hwho
          exact ⟨rfl, rfl⟩
        · exact absurd (hk.symm.trans hk') hwho
      · rcases hwho with hwho | ⟨_, hwho⟩
        · cases hwho
          exact absurd hk hk'
        · exact hwho
    · exact h.conns k' c hc

theorem Apart.conn {ev : ConnEvent} {k' : Connection} {c : InGame} (h : Apart k u p s) (hc : s.conns k' = some c)
    (hs : connStep cfg s k' c ev = some s') : Apart k u p s' := by
  have hf := connStep_frame hc hs
  have hentry := h.conns k' c hc
  refine ⟨hf.worker ▸ h.own, hf.worker ▸ h.ok, hf.fresh h.fresh, ?_, ?_⟩
  · intro k'' c'' hc''
    by_cases hk : k'' = k'
    · subst hk
      obtain ⟨hu, hp, _, hx⟩ := hf.entry c'' hc''
      refine ⟨by rw [hu, hp]; exact hentry.mine, by rw [hu, hp]; exact hentry.others, fun x hsnap => ?_⟩
      rw [hp]
      rcases hx x hsnap with hx | hx
      · exact hx
      · exact hentry.snapshot x hx
    · rw [hf.conns k'' hk] at hc''
      exact h.conns k'' c'' hc''
  · intro exit hex hid
    rcases hf.hasExit hex with hex | ⟨hsnap, huser, _⟩
    · exact h.exits exit hex hid
    · -- a new exit is about the connection's own player, under its own account
      rw [huser]
      by_cases hk : k' = k
      · exact absurd ((hentry.snapshot _ hsnap).trans (hentry.mine hk).2) hid
      · exact (hentry.others hk).1

theorem Apart.task {ev : TaskEvent} (h : Apart k u p s) (hs : taskStep s ev = some s') : Apart k u p s' := by
  obtain ⟨wev, hf⟩ := taskStep_frame hs
  exact ⟨workerStep_own hf.worker h.own, workerStep_laneOk hf.worker h.own h.ok, h.fresh.task h.own hs,
    hf.conns ▸ h.conns,
    fun exit hex => h.exits exit (taskStep_hasExit hs h.own hex)⟩

theorem Apart.step [GrowthRng] {ev : Event} (h : Apart k u p s) (he : Apart.Enters k u p ev)
    (hs : systemStep cfg s ev = some s') : Apart k u p s' := by
  cases ev with
  | map ev => exact h.map he hs
  | conn k' ev =>
    obtain ⟨c, hc, hs⟩ := Option.bind_eq_some_iff.1 hs
    exact h.conn hc hs
  | task ev => exact h.task hs

end

/-! ## The watched connection -/

/-- The player is on the map and no exit has been reported done. -/
def InGame.plays (c : InGame) : Bool :=
  match c.state with
  | .playing | .exiting .handoff _ | .awaitingExit .handoff _ => true
  | _ => false

/-- The handoff that the connection waits for. -/
def InGame.awaits (c : InGame) : Option Reply :=
  match c.state with
  | .awaitingExit .handoff r => some r
  | _ => none

/-- The exit of a handoff that was given up, or of an earlier one. -/
def abandoned (c : InGame) : DispatchKind → Bool
  | .commitPlayerExit exit => c.awaits ≠ some exit.reply
  | .save _ => false

/-- An exit that the connection does not wait for any more does not commit: neither before the deadline, with the
reply still on its way, nor after it. -/
def NoAbandonedCommit (k : Connection) (p : PlayerId) (s : System) : Event → Prop
  | .conn k' .replyTimeout => k' = k → ∀ c ∈ s.conns k, ∀ r ∈ c.awaits, ¬ Committed (s.worker.tasks p) r
  | .task (.exec i now fault exitFault) =>
    ∀ task ∈ s.worker.inFlight[i]?, task.op.playerId = p → ∀ c ∈ s.conns k, c.plays → abandoned c task.op.kind →
      runOpWrites s.db task.op now fault exitFault = false
  | _ => True

instance (k : Connection) (p : PlayerId) (s : System) (ev : Event) : Decidable (NoAbandonedCommit k p s ev) :=
  match ev with
  | .conn _ .replyTimeout => inferInstanceAs (Decidable (_ → ∀ _ ∈ _, ∀ _ ∈ _, _))
  | .task (.exec _ _ _ _) => inferInstanceAs (Decidable (∀ _ ∈ _, _ → ∀ _ ∈ _, _ → _ → _))
  | .conn _ (.capture _ _ _ _) | .conn _ (.disconnect _ _ _) | .conn _ (.phaseSelect _ _ _) | .conn _ .send
  | .conn _ .sendTimeout | .conn _ .reply | .conn _ .playerLeave | .conn _ (.heartbeat _) => .isTrue trivial
  | .task .recv | .task (.dispatch _ _) | .task (.joinNext _ _) => .isTrue trivial
  | .map _ => .isTrue trivial

/-- The exit is on its way; if it has committed, its success is on its way to the connection. -/
structure Waits (s : System) (k : Connection) (u : String) (p : PlayerId) (e : PlayerRuntimeEpoch)
    (r : Reply) : Prop where
  known : r < s.nextReply
  only : OnlyAt s p r
  owns : Owns s.db k u p e ∨ Committed (s.worker.tasks p) r ∨ (r, some (.ok ())) ∈ s.worker.replies

structure Live (s : System) (k : Connection) (u : String) (p : PlayerId) (e : PlayerRuntimeEpoch)
    (c : InGame) : Prop where
  map : s.identity p = some (c.netId, e)
  idle : c.awaits = none → Owns s.db k u p e
  waits : ∀ r, c.awaits = some r → Waits s k u p e r

section
variable {cfg : Config} {k : Connection} {u : String} {p : PlayerId} {e : PlayerRuntimeEpoch}
  {s s' : System} {c : InGame}

theorem Live.map_step [GrowthRng] {ev : MapEvent} (h : Live s k u p e c) (he : ∀ x ∈ ev.entering, x.2.2 ≠ p)
    (hs : mapStep cfg s ev = some s') : Live s' k u p e c := by
  obtain ⟨hf, hkept⟩ := mapStep_frame hs
  have hmap : s'.identity p = s.identity p := by
    cases hent : ev.entering with
    | none => exact (hkept hent).2 p
    | some x =>
      have hne := he x hent
      cases ev <;> cases hent
      obtain ⟨⟨q, hplayers, _⟩, _⟩ := enterPlayer_spec hs
      rw [System.identity, hplayers, Function.update_of_ne (Ne.symm hne)]
      rfl
  refine ⟨hmap.trans h.map, fun hidle => hf.db ▸ h.idle hidle, fun r hr => ?_⟩
  obtain ⟨hlt, hat, howns⟩ := h.waits r hr
  refine ⟨?_, ?_, by rw [hf.db, hf.worker]; exact howns⟩
  · rcases hf.queue with ⟨_, hn⟩ | ⟨save, _, ⟨_, hn⟩ | ⟨_, hn⟩⟩ <;> rw [hn]
    · exact hlt
    · exact hlt
    · exact Nat.lt_succ_of_lt hlt
  · rcases hf.queue with ⟨hq, _⟩ | ⟨save, hq, ⟨hn, _⟩ | ⟨hn, _⟩⟩
    · exact hat.of_eq hf.worker hq
    · exact hat.push hf.worker hq (by simp [PlayerPersistenceRequest.reply, hn])
    · refine hat.push hf.worker hq ?_
      simp only [PlayerPersistenceRequest.reply, hn, ne_eq, Option.some.injEq]
      exact ne_of_gt hlt

theorem Live.conn_step {k' : Connection} {c' : InGame} (h : Live s k u p e c) (hf : ConnFrame s s' k' c')
    (hu : c'.username ≠ u) (hp : c'.playerId ≠ p) : Live s' k u p e c := by
  have hdb : Owns s.db k u p e → Owns s'.db k u p e := by
    intro ho
    rcases hf.db with hdb | ⟨now, hdb⟩ | hdb <;> rw [hdb]
    · exact ho
    · exact ho.heartbeat now _
    · exact ho.release hu _ _
  refine ⟨?_, fun hidle => hdb (h.idle hidle), fun r hr => ?_⟩
  · rcases hf.players p with hsame | ⟨hid, _⟩
    · rw [System.identity, hsame]
      exact h.map
    · exact absurd hid.symm hp
  · obtain ⟨hlt, hat, howns⟩ := h.waits r hr
    refine ⟨?_, ?_, ?_⟩
    · rcases hf.queue with ⟨_, hn⟩ | ⟨_, _, _, _, hn, _⟩ <;> rw [hn]
      · exact hlt
      · exact Nat.lt_succ_of_lt hlt
    · rcases hf.queue with ⟨hq, _⟩ | ⟨request, hq, _, hn, _⟩
      · exact hat.of_eq hf.worker hq
      · refine hat.push hf.worker hq ?_
        rw [hn, ne_eq, Option.some.injEq]
        exact ne_of_gt hlt
    · rw [hf.worker]
      exact howns.imp_left hdb

/-- The database after a task: an exit of the player that succeeds is the only one to end the ownership. -/
theorem Owns.runOp (op : DispatchOp) (h : Owns s.db k u p e) (now : Int) (fault : Bool) (exitFault : Option ExitStage)
    (hown : op.kind.snapshot.playerId = op.playerId)
    (hexits : ∀ exit, op.kind = .commitPlayerExit exit → exit.snapshot.playerId ≠ p → exit.username ≠ u) :
    Owns (runOp s.db op now fault exitFault).2 k u p e ∨
      ∃ exit, op.kind = .commitPlayerExit exit ∧ op.playerId = p ∧ runOpWrites s.db op now fault exitFault = true ∧
        (Core.runOp s.db op now fault exitFault).1 = .ok () := by
  obtain ⟨pid, save | exit⟩ := op
  · refine .inl ?_
    have hsave := h.save now fault save.snapshot.snapshot
    simp only [Core.runOp]
    split <;> exact hsave
  · have hdb := runOp_exit_snd s.db pid exit now fault exitFault
    by_cases hid : exit.snapshot.playerId = p
    · cases hok : (commitPlayerExit now exitFault exit.exitKind exit.username exit.serverId exit.connectionId
          exit.snapshot.snapshot s.db).1 with
      | error err =>
        rw [hdb, commitPlayerExit_error hok]
        exact .inl h
      | ok _ => exact .inr ⟨exit, rfl, hown.symm.trans hid, (runOpWrites_exit ..).2 hok, (runOp_exit_ok ..).2 hok⟩
    · rw [hdb]
      exact .inl (h.exit hid (hexits exit rfl hid) ..)

theorem Live.task_step {ev : TaskEvent} (h : Live s k u p e c) (ha : Apart k u p s) (hc : s.conns k = some c)
    (hplays : c.plays) (hk : NoAbandonedCommit k p s (.task ev)) (hs : taskStep s ev = some s') :
    Live s' k u p e c := by
  obtain ⟨wev, hf⟩ := taskStep_frame hs
  have hmap : s'.identity p = some (c.netId, e) := by
    rw [System.identity, hf.players]
    exact h.map
  -- the ownership ends with the exit that the connection waits for, and only then
  have hdb : Owns s.db k u p e → Owns s'.db k u p e ∨ ∃ r, c.awaits = some r ∧ Committed (s'.worker.tasks p) r := by
    intro ho
    obtain ⟨hworker, _, _, _, _, hdb⟩ := hf
    generalize s'.db = db' at hdb ⊢
    cases hdb with
    | kept => exact .inl ho
    | @exec i now fault exitFault task ht =>
      have htask := Worker.mem_tasks ht
      rcases ho.runOp task.op now fault exitFault ((ha.own task.op.playerId).tasks task htask)
        (fun exit hexit => ha.exits exit (.inr ⟨task.op.playerId, .inr ⟨task, htask, hexit⟩⟩))
          with ho | ⟨exit, hexit, hid, hwr, hres⟩
      · exact .inl ho
      · refine .inr ⟨exit.reply, ?_, { task with result := some (.ok ()) }, ?_, by simp [Task.committed, hexit]⟩
        · by_contra hne
          have := hk task ht hid c hc hplays (by simp [abandoned, hexit, hne])
          rw [hwr] at this
          cases this
        · rw [hres] at hworker
          exact hid ▸ mem_tasks_of_finish hworker ht
  refine ⟨hmap, fun hidle => ?_, fun r hr => ?_⟩
  · rcases hdb (h.idle hidle) with ho | ⟨r, hr, _⟩
    · exact ho
    · rw [hidle] at hr
      cases hr
  · obtain ⟨hlt, hat, howns⟩ := h.waits r hr
    refine ⟨by rw [(taskStep_replies hs ha.own r).1]; exact hlt, hat.task ha.own hs, ?_⟩
    rcases howns with ho | hcom
    · rcases hdb ho with ho | ⟨r', hr', hcom⟩
      · exact .inl ho
      · rw [hr] at hr'
        cases hr'
        exact .inr (.inl hcom)
    · exact .inr (workerStep_committed hf.worker ha.own (ha.ok p) hcom)

/-- Back to playing, or on the way to an exit that is not sent yet. -/
theorem Live.of_owns {c' : InGame} (hmap : s'.identity p = some (c'.netId, e)) (ho : Owns s'.db k u p e)
    (ha : c'.awaits = none) :
    Live s' k u p e c' := by
  refine ⟨hmap, fun _ => ho, fun r hr => ?_⟩
  rw [ha] at hr
  cases hr

/-- An answer that is not a success leaves no other: the exit has not committed. -/
theorem Waits.owns_of_reply {r : Reply} (h : Waits s k u p e r) {x : Option PlayerPersistenceResult}
    (hr : s.replyOf r = some x) (hx : x ≠ some (.ok ())) : Owns s.db k u p e := by
  obtain ⟨⟨r', y⟩, hfind, rfl⟩ := Option.map_eq_some_iff.1 hr
  obtain rfl : r' = r := by simpa using List.find?_some hfind
  have hmem := List.mem_of_find?_eq_some hfind
  have hans := answers_pos hmem
  have honce := h.only.once
  rcases h.owns with ho | hcom | hok
  · exact ho
  · -- the task would still hold the channel
    have hheld : 0 < s.worker.held p r' := hcom.held_pos
    omega
  · have hfind' := find?_of_answers (by omega) hok
    rw [hfind] at hfind'
    cases hfind'
    exact absurd rfl hx

theorem Waits.owns_of_timeout {r : Reply} (h : Waits s k u p e r) (hr : s.replyOf r = none)
    (hc : ¬ Committed (s.worker.tasks p) r) : Owns s.db k u p e := by
  rcases h.owns with ho | hcom | hok
  · exact ho
  · exact absurd hcom hc
  · have hfind := List.find?_eq_none.1 (Option.map_eq_none_iff.1 hr) _ hok
    simp at hfind

theorem Live.own_step {ev : ConnEvent} {c' : InGame} (h : c.plays → Live s k u p e c) (ha : Apart k u p s)
    (hc : s.conns k = some c) (hk : NoAbandonedCommit k p s (.conn k ev)) (hs : connStep cfg s k c ev = some s')
    (hc' : s'.conns k = some c') (hplays : c'.plays) : Live s' k u p e c' := by
  have hf := connStep_frame hc hs
  have hnet := (hf.entry c' hc').2.2.1
  have hmap : s'.players = s.players → s.identity p = some (c.netId, e) → s'.identity p = some (c'.netId, e) := by
    intro hp hid
    rw [System.identity, hp, hnet]
    exact hid
  cases connStep_move hc hs hc' with
  | captured _ hst _ _ hst' hp hdb =>
    have hlive := h (by simp [InGame.plays, hst])
    have ho := hlive.idle (by simp [InGame.awaits, hst])
    exact .of_owns (hmap hp hlive.map) (hdb ▸ ho) (by simp [InGame.awaits, hst'])
  | @sent x hst hst' hq hn hp hdb =>
    have hlive := h (by simp [InGame.plays, hst])
    have ho := hlive.idle (by simp [InGame.awaits, hst])
    have hentry := ha.conns k c hc
    have hplayer : x.playerId = p := (hentry.snapshot x (by rw [hst]; rfl)).trans (hentry.mine rfl).2
    have hawaits : c'.awaits = some s.nextReply := by simp [InGame.awaits, hst']
    refine ⟨hmap hp hlive.map, fun hidle => ?_, fun r hr => ?_⟩
    · rw [hawaits] at hidle
      cases hidle
    · rw [hawaits] at hr
      cases hr
      exact ⟨hn ▸ Nat.lt_succ_self _, ha.fresh.onlyAt hf.worker hq rfl hplayer, .inl (hdb ▸ ho)⟩
  | done _ _ hst' => simp [InGame.plays, hst'] at hplays
  | failed hst hst' hp hdb =>
    have ho : Owns s.db k u p e ∧ s.identity p = some (c.netId, e) := by
      rcases hst with hst | ⟨x, hst⟩ | ⟨r, hst, hwhy⟩
      · have hlive := h (by simp [InGame.plays, hst])
        exact ⟨hlive.idle (by simp [InGame.awaits, hst]), hlive.map⟩
      · have hlive := h (by simp [InGame.plays, hst])
        exact ⟨hlive.idle (by simp [InGame.awaits, hst]), hlive.map⟩
      · have hlive := h (by simp [InGame.plays, hst])
        have hawaits : c.awaits = some r := by simp [InGame.awaits, hst]
        refine ⟨?_, hlive.map⟩
        rcases hwhy with ⟨y, hy, hne⟩ | ⟨hnone, rfl⟩
        · exact (hlive.waits r hawaits).owns_of_reply hy hne
        · exact (hlive.waits r hawaits).owns_of_timeout hnone (hk rfl c hc r hawaits)
    exact .of_owns (hmap hp ho.2) (hdb ▸ ho.1) (by simp [InGame.awaits, hst'])
  | beat hst' hs' =>
    subst hst' hs'
    obtain ⟨hid, hidle, hwaits⟩ := h hplays
    refine ⟨hid, fun hi => (hidle hi).heartbeat _ _, fun r hr => ?_⟩
    obtain ⟨hlt, hat, howns⟩ := hwaits r hr
    exact ⟨hlt, hat.of_eq rfl rfl, howns.imp_left fun ho => ho.heartbeat _ _⟩
  | leaving hst' =>
    unfold ConnState.leaves at hst'
    unfold InGame.plays at hplays
    split at hst' <;> simp_all

/-! ## Runs -/

/-- Nobody else enters with the connection, the account or the player. -/
def Foreign (k : Connection) (u : String) (p : PlayerId) : Event → Prop
  | .map ev => ∀ x ∈ ev.entering, x.1 ≠ k ∧ x.2.1 ≠ u ∧ x.2.2 ≠ p
  | _ => True

instance (k : Connection) (u : String) (p : PlayerId) (ev : Event) : Decidable (Foreign k u p ev) :=
  match ev with
  | .map _ => inferInstanceAs (Decidable (∀ _ ∈ _, _))
  | .conn _ _ => .isTrue trivial
  | .task _ => .isTrue trivial

theorem Foreign.enters {ev : Event} (h : Foreign k u p ev) : Apart.Enters k u p ev := by
  cases ev with
  | map ev => exact fun x hx => .inr (h x hx)
  | conn k' ev => trivial
  | task ev => trivial

/-- The player is on the map, and the exit that the connection waits for, if it waits for one, has not committed. -/
def BeforeCommit (s : System) (c : InGame) : Prop :=
  c.plays ∧ ∀ r ∈ c.awaits, ¬ Committed (s.worker.tasks c.playerId) r ∧ (r, some (.ok ())) ∉ s.worker.replies

/-- The watched connection is apart from the others, and owns what it plays. -/
structure Watched (k : Connection) (u : String) (p : PlayerId) (e : PlayerRuntimeEpoch) (s : System) : Prop where
  apart : Apart k u p s
  live : ∀ c, s.conns k = some c → c.plays → Live s k u p e c

theorem Watched.step [GrowthRng] {ev : Event} (h : Watched k u p e s) (hf : Foreign k u p ev)
    (hk : NoAbandonedCommit k p s ev) (hs : systemStep cfg s ev = some s') : Watched k u p e s' := by
  refine ⟨h.apart.step hf.enters hs, fun c hc hplays => ?_⟩
  cases ev with
  | map ev =>
    have hsame : s'.conns k = s.conns k := by
      obtain ⟨_, hkept⟩ := mapStep_frame hs
      cases hent : ev.entering with
      | none => rw [(hkept hent).1]
      | some x =>
        have hne := (hf x hent).1
        cases ev <;> cases hent
        obtain ⟨_, hconns, _⟩ := enterPlayer_spec hs
        rw [hconns, Function.update_of_ne (Ne.symm hne)]
    rw [hsame] at hc
    exact (h.live c hc hplays).map_step (fun x hx => (hf x hx).2.2) hs
  | conn k' ev =>
    obtain ⟨c0, hc0, hs⟩ := Option.bind_eq_some_iff.1 hs
    by_cases hid : k' = k
    · subst hid
      exact Live.own_step (h.live c0 hc0) h.apart hc0 hk hs hc hplays
    · have hframe := connStep_frame hc0 hs
      rw [hframe.conns k (Ne.symm hid)] at hc
      obtain ⟨hu, hp⟩ := (h.apart.conns k' c0 hc0).others hid
      exact (h.live c hc hplays).conn_step hframe hu hp
  | task ev =>
    obtain ⟨_, hframe⟩ := taskStep_frame hs
    rw [hframe.conns] at hc
    exact (h.live c hc hplays).task_step h.apart hc hplays hk hs

/-- The connection enters the map with what it has loaded. -/
theorem Apart.enter [GrowthRng] {b : PlayerGameplayBootstrap} {playtime : PlayerPlaytime} {now : Nat}
    (h : Apart k u b.playerId s) (ho : Owns s.db k u b.playerId e)
    (hs : systemStep cfg s (.map (.enter k u b e playtime now)) = some s') : Watched k u b.playerId e s' := by
  have hme : Apart.Enters k u b.playerId (.map (.enter k u b e playtime now)) :=
    fun x hx => .inl (Option.some.inj hx).symm
  refine ⟨h.step hme hs, fun c hc _ => ?_⟩
  have hmap : mapStep cfg s (.enter k u b e playtime now) = some s' := hs
  obtain ⟨hf, _⟩ := mapStep_frame hmap
  obtain ⟨⟨q, hplayers, hnet, hepoch⟩, hconns, _⟩ := enterPlayer_spec hs
  rw [hconns, Function.update_self] at hc
  cases hc
  refine .of_owns ?_ (hf.db ▸ ho) rfl
  rw [System.identity, hplayers, Function.update_self, Option.map_some, hnet, hepoch]

/-- A connection enters the map with the session and the epoch that the database holds, and plays. As long as no exit
that it has given up commits, it owns its session, the stored epoch is the one the map holds and no save of the map is
refused, in every state before its exit commits, however many handoffs were reported as failed. -/
theorem failed_handoff_owns [GrowthRng] {db : GameDb} {b : PlayerGameplayBootstrap} {playtime : PlayerPlaytime}
    {now : Nat} {pre post : List Event} {t : System} (hpre : run (systemStep cfg) (.start db) pre = some s)
    (hloaded : Owns s.db k u b.playerId e) (hforeign : ∀ ev ∈ pre ++ post, Foreign k u b.playerId ev)
    (hmeets : Meets (systemStep cfg) (NoAbandonedCommit k b.playerId) s (.map (.enter k u b e playtime now) :: post))
    (hrun : run (systemStep cfg) s (.map (.enter k u b e playtime now) :: post) = some t) (hc : t.conns k = some c)
    (hbefore : BeforeCommit t c) :
    Owns t.db k u b.playerId e ∧ (t.players b.playerId).map MapPlayer.runtimeEpoch = some e ∧
      ∀ now fault snapshot, snapshot.playerId = b.playerId → snapshot.runtime.runtimeEpoch = e →
        (savePlayerSnapshot now fault snapshot t.db).1 ≠ .ok .staleOwner := by
  have hapart : Apart k u b.playerId s := by
    refine run_inv_of_meets (fun _ _ _ hI hC hs => Apart.step hI hC hs) (apart_start k u b.playerId db) ?_ hpre
    exact .of_forall fun ev hev => (hforeign ev (List.mem_append_left _ hev)).enters
  obtain ⟨s1, hs1, hpost⟩ := (run_cons_eq_some _).1 hrun
  have hwatched : Watched k u b.playerId e t := by
    refine run_inv_of_meets (C := fun s ev => Foreign k u b.playerId ev ∧ NoAbandonedCommit k b.playerId s ev)
      (fun _ _ _ hI hC hs => hI.step hC.1 hC.2 hs) (hapart.enter hloaded hs1) ?_ hpost
    exact (Meets.of_forall fun ev hev => hforeign ev (List.mem_append_right _ hev)).and (hmeets.2 s1 hs1)
  have hplayer := ((hwatched.apart.conns k c hc).mine rfl).2
  have hlive := hwatched.live c hc hbefore.1
  have howns : Owns t.db k u b.playerId e := by
    cases haw : c.awaits with
    | none => exact hlive.idle haw
    | some r =>
      obtain ⟨hncom, hnrep⟩ := hbefore.2 r haw
      rw [hplayer] at hncom
      rcases (hlive.waits r haw).owns with ho | hcom | hok
      · exact ho
      · exact absurd hcom hncom
      · exact absurd hok hnrep
  refine ⟨howns, ?_, ?_⟩
  · obtain ⟨q, hq, hid⟩ := Option.map_eq_some_iff.1 hlive.map
    rw [hq, Option.map_some, (Prod.mk.inj hid).2]
  · rintro now fault snapshot hid hepoch
    exact savePlayerSnapshot_not_stale ⟨by rw [hid, hepoch]; exact howns.epoch,
      by rw [hid]; exact howns.progression⟩ now fault

end

/-! ## A reply that does not come in time -/

def noviceConfig : Config := ⟨⟨noviceClasses, noviceTable⟩, "metin2_map_c1", 64⟩

def novice : PlayerId := noviceBootstrap.playerId

/-- The account is logged in on A and its player is about to enter. -/
def loggedInDb : GameDb :=
  { seededDb with
    sessions := fun _ => some ⟨some connA.serverId, some connA.connectionId, 0, none, none, none, .active⟩ }

theorem loggedInDb_owns (u : String) (p : PlayerId) : Owns loggedInDb connA u p .initial :=
  ⟨⟨_, rfl, rfl, rfl, rfl⟩, rfl, rfl⟩

def enterNovice : Event := .map (.enter connA "admin" noviceBootstrap .initial ⟨0⟩ 0)

/-- The handoff times out with its exit in flight. -/
def timedOutEvents : List Event :=
  [.conn connA (.capture 10 ⟨0, 0⟩ "metin2_map_a1" ⟨0, 0⟩), .conn connA .send, .task .recv,
    .task (.dispatch [novice] 0),
   .conn connA .replyTimeout]

/-- The exit then fails. -/
def timedOutFailedEvents : List Event := timedOutEvents ++
    [.task (.exec 0 1 false (some .session)), .task (.joinNext 0 0)]

theorem failed_handoff_owns_timedOut :
    let := splitMix64Rolls
    ∃ t c, run (systemStep noviceConfig) (.start loggedInDb) (enterNovice :: timedOutFailedEvents) = some t ∧
      t.conns connA = some c ∧ c.relocationError = some .commitFailed ∧ BeforeCommit t c ∧
      Owns t.db connA "admin" novice .initial := by
  intro rng
  have hmeets : Meets (systemStep noviceConfig) (NoAbandonedCommit connA novice) (.start loggedInDb)
      (enterNovice :: timedOutFailedEvents) := by decide +kernel
  have hrun : ((run (systemStep noviceConfig) (.start loggedInDb) (enterNovice :: timedOutFailedEvents)).bind fun t =>
      (t.conns connA).map fun c => (c.relocationError, c.plays, c.awaits)) = some (some .commitFailed, true, none) := by
    decide +kernel
  obtain ⟨t, ht, hp⟩ := Option.bind_eq_some_iff.1 hrun
  obtain ⟨c, hc, hp⟩ := Option.map_eq_some_iff.1 hp
  simp only [Prod.mk.injEq] at hp
  have hbefore : BeforeCommit t c := ⟨hp.2.1, by rw [hp.2.2]; rintro _ ⟨⟩⟩
  have hpre : run (systemStep noviceConfig) (.start loggedInDb) [] = some (.start loggedInDb) := rfl
  exact ⟨t, c, ht, hc, hp.1, hbefore,
    (failed_handoff_owns hpre (loggedInDb_owns _ _) (by decide) hmeets ht hc hbefore).1⟩

/-- The exit commits under the player who was told that the handoff had failed: the session is gone, the epoch has
moved on, and what the map saves is refused. -/
theorem failed_handoff_owns_committed :
    let := splitMix64Rolls
    ∃ t c, run (systemStep noviceConfig) (.start loggedInDb)
        (enterNovice :: (timedOutEvents ++ [.task (.exec 0 1 false none)])) = some t ∧ t.conns connA = some c ∧
      c.relocationError = some .commitFailed ∧ BeforeCommit t c ∧
        (t.db.sessions "admin").map SessionRow.state = some .authed ∧
      (t.players novice).map MapPlayer.runtimeEpoch = some ⟨0⟩ ∧ t.db.storedEpoch novice = some ⟨1⟩ ∧
      ∃ q, t.players novice = some q ∧
        (savePlayerSnapshot 2 false (q.capture novice noviceConfig.mapKey 30007 ⟨0, 0⟩) t.db).1 = .ok .staleOwner := by
  intro rng
  have hrun : ((run (systemStep noviceConfig) (.start loggedInDb)
      (enterNovice :: (timedOutEvents ++ [.task (.exec 0 1 false none)]))).bind fun t =>
      (t.conns connA).bind fun c => (t.players novice).map fun q =>
        ((c.relocationError, c.plays, c.awaits), (t.db.sessions "admin").map SessionRow.state, q.runtimeEpoch,
          t.db.storedEpoch novice,
          (savePlayerSnapshot 2 false (q.capture novice noviceConfig.mapKey 30007 ⟨0, 0⟩) t.db).1.toOption ==
          some .staleOwner)) =
      some ((some .commitFailed, true, none), some .authed, ⟨0⟩, some ⟨1⟩, true) := by decide +kernel
  obtain ⟨t, ht, hp⟩ := Option.bind_eq_some_iff.1 hrun
  obtain ⟨c, hc, hp⟩ := Option.bind_eq_some_iff.1 hp
  obtain ⟨q, hq, hp⟩ := Option.map_eq_some_iff.1 hp
  simp only [Prod.mk.injEq] at hp
  obtain ⟨⟨herr, hplays, hawaits⟩, hstate, hepoch, hstored, hstale⟩ := hp
  refine ⟨t, c, ht, hc, herr, ⟨hplays, by rw [hawaits]; rintro _ ⟨⟩⟩, hstate,
    by rw [hq, Option.map_some, hepoch], hstored,
    q, hq, ?_⟩
  cases hsaved : (savePlayerSnapshot 2 false (q.capture novice noviceConfig.mapKey 30007 ⟨0, 0⟩) t.db).1 with
  | error e => rw [hsaved] at hstale; cases hstale
  | ok outcome => rw [hsaved] at hstale; exact congrArg _ (Option.some.inj (eq_of_beq hstale))

end Zohar.Core
