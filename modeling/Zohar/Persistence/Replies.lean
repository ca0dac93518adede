/-
Reply channels and exits on their way through the worker. A reply channel that came in with a request is held by the
lane or by a task of the request's player until it is answered or dropped, and this happens once; an exit that the
worker holds is one that it has received.
-/
import Zohar.Persistence.Worker
import Mathlib.Tactic

namespace Zohar.Persistence

/-! ## Reply channels -/

def Lane.heldReplies (l : Lane) : List Reply :=
  (l.pendingSave.bind PendingSave.reply).toList ++ (l.pendingExit.map PendingExit.reply).toList

def taskReplies (ts : List Task) : List Reply := ts.filterMap fun t => t.op.kind.reply

/-- How often a player's lane and tasks hold a reply channel. -/
def held (l : Lane) (ts : List Task) (r : Reply) : Nat := l.heldReplies.count r + (taskReplies ts).count r

def answers (rs : List (Reply × Option PlayerPersistenceResult)) (r : Reply) : Nat := (rs.map Prod.fst).count r

@[simp] theorem answers_nil (r : Reply) : answers [] r = 0 := rfl

@[simp] theorem answers_append (a b : List (Reply × Option PlayerPersistenceResult)) (r : Reply) :
    answers (a ++ b) r = answers a r + answers b r := by simp [answers]

@[simp] theorem answers_singleton (x : Reply) (y : Option PlayerPersistenceResult) (r : Reply) :
    answers [(x, y)] r = [x].count r := rfl

@[simp] theorem answers_dropped (o : Option Reply) (r : Reply) : answers (droppedReply o) r = o.toList.count r := by
  cases o <;> rfl

theorem answers_map (o : Option Reply) (y : Option PlayerPersistenceResult) (r : Reply) :
    answers (o.map fun x => (x, y)).toList r = o.toList.count r := by cases o <;> rfl

@[simp] theorem taskReplies_append (a b : List Task) : taskReplies (a ++ b) = taskReplies a ++ taskReplies b :=
  List.filterMap_append

@[simp] theorem taskReplies_cons (t : Task) (ts : List Task) :
    taskReplies (t :: ts) = t.op.kind.reply.toList ++ taskReplies ts := by
  unfold taskReplies
  rw [List.filterMap_cons]
  cases t.op.kind.reply <;> rfl

@[simp] theorem taskReplies_nil : taskReplies [] = [] := rfl

theorem Lane.heldReplies_settle (l : Lane) : l.settle.heldReplies = l.heldReplies := by
  simp [Lane.heldReplies]

theorem queueSave_replies (l : Lane) (save : PendingSave) (r : Reply) :
    (l.queueSave save).1.heldReplies.count r + answers (l.queueSave save).2 r =
      l.heldReplies.count r + save.reply.toList.count r := by
  obtain ⟨snapshot, urgency, reply⟩ := save
  unfold Lane.queueSave
  split
  · rw [answers_map]
  · split
    · rename_i pending hp
      split
      · split
        · rename_i hr hpr
          have hsave : reply = some _ := hr
          simp [Lane.heldReplies, hp, hpr, hsave]
        · rename_i hno
          cases reply with
          | none => simp [Lane.heldReplies, hp]
          | some x =>
            cases hpr : pending.reply with
            | none =>
              simp [Lane.heldReplies, hp, hpr, List.count_cons]
            | some y => exact absurd hpr (hno x y rfl)
      · simp [Lane.heldReplies, hp]
    · rename_i hp
      simp [Lane.heldReplies, hp]
      omega

theorem queueExit_replies (l : Lane) (exit : PendingExit) (r : Reply) :
    (l.queueExit exit).1.heldReplies.count r + answers (l.queueExit exit).2 r =
      l.heldReplies.count r + [exit.reply].count r := by
  simp [Lane.queueExit, Lane.heldReplies]
  omega

theorem nextDispatch_replies {l l' : Lane} {op : DispatchOp} (h : l.nextDispatch = some (op, l')) (r : Reply) :
    l'.heldReplies.count r + op.kind.reply.toList.count r = l.heldReplies.count r := by
  unfold Lane.nextDispatch at h
  split at h
  · rename_i e he
    cases h
    simp [Lane.heldReplies, he, DispatchKind.reply]
  · rename_i he
    obtain ⟨save, hs, heq⟩ := Option.map_eq_some_iff.1 h
    cases heq
    simp [Lane.heldReplies, hs, he, DispatchKind.reply]

theorem complete_replies (l : Lane) (kind : DispatchKind) (result : PlayerPersistenceResult) (now : Int) (r : Reply) :
    (l.complete kind result now).1.heldReplies.count r + answers (l.complete kind result now).2 r =
      l.heldReplies.count r + kind.reply.toList.count r := by
  unfold Lane.complete
  dsimp only
  split
  · split
    · split
      · split
        · simp [Lane.heldReplies, DispatchKind.reply]
        · rename_i hno
          have hnone : l.pendingExit = none ∧ l.pendingSave = none := by simpa using hno
          simp [Lane.heldReplies, DispatchKind.reply, hnone.1, hnone.2]
      · simp [Lane.heldReplies, DispatchKind.reply]
    · rw [answers_map]
      rfl
  · simp [Lane.heldReplies, DispatchKind.reply]

/-- An event other than a request adds no channel and loses none. -/
theorem LaneStep.replies {set : List Task} {id : PlayerId} {ev : WorkerEvent} {l l' : Lane} {ts ts' : List Task}
    {rs : List (Reply × Option PlayerPersistenceResult)} (h : LaneStep set id ev l ts l' ts' rs)
    (hne : ∀ request, ev ≠ .recv request) (r : Reply) : held l' ts' r + answers rs r = held l ts r := by
  unfold held
  cases h with
  | kept => simp
  | save => exact absurd rfl (hne _)
  | exit => exact absurd rfl (hne _)
  | dispatched _ hn =>
    have := nextDispatch_replies hn r
    simp [Lane.heldReplies] at this ⊢
    omega
  | finished => simp
  | @joined _ now _ a b t result _ _ =>
    have := complete_replies l t.op.kind result now r
    rw [Lane.heldReplies_settle]
    simp
    omega
  | orphaned =>
    simp
    omega
  | panicked =>
    simp
    omega

/-- The reply channels of one player are its own. -/
def Worker.held (w : Worker) (id : PlayerId) (r : Reply) : Nat := Persistence.held (w.lane id) (w.tasks id) r

/-- What an event brings in. -/
def WorkerEvent.arriving : WorkerEvent → List Reply
  | .recv request => request.reply.toList
  | _ => []

/-- A reply channel stays with its player until it is answered. -/
theorem workerStep_replies {w w' : Worker} {ev : WorkerEvent} (h : workerStep w ev = some w') (hown : w.Own)
    (r : Reply) :
    ∃ p, (∀ request, ev = .recv request → p = request.playerId) ∧ (∀ id, id ≠ p → w'.held id r = w.held id r) ∧
      w'.held p r + answers w'.replies r = w.held p r + answers w.replies r + ev.arriving.count r ∧
      answers w.replies r ≤ answers w'.replies r := by
  by_cases hev : ∃ request, ev = .recv request
  · obtain ⟨request, rfl⟩ := hev
    simp only [workerStep] at h
    split at h
    · cases h
    · cases h
      refine ⟨request.playerId, by rintro _ ⟨⟩; rfl, fun id hid => ?_, ?_⟩
      · rw [Worker.held, w.lane_handleRequest_of_ne hid, Worker.tasks_handleRequest, ← Worker.held]
      · cases request with
        | saveSnapshot save =>
          have := queueSave_replies (w.lane save.snapshot.playerId) save r
          simp only [Worker.held, PlayerPersistenceRequest.playerId, PlayerPersistenceRequest.snapshot,
            w.lane_handleRequest_save save, Worker.tasks_handleRequest, if_true, Persistence.held, WorkerEvent.arriving,
            PlayerPersistenceRequest.reply]
          simp only [Worker.handleRequest, answers_append]
          constructor <;> omega
        | commitPlayerExit exit =>
          have := queueExit_replies (w.lane exit.snapshot.playerId) exit r
          simp only [Worker.held, PlayerPersistenceRequest.playerId, PlayerPersistenceRequest.snapshot,
            w.lane_handleRequest_exit exit, Worker.tasks_handleRequest, if_true, Persistence.held, WorkerEvent.arriving,
            PlayerPersistenceRequest.reply, Option.toList_some]
          simp only [Worker.handleRequest, answers_append]
          constructor <;> omega
  · have hne : ∀ request, ev ≠ .recv request := fun request he => hev ⟨request, he⟩
    obtain ⟨p, rs, hrs, hp, hother⟩ := workerStep_spec h hown
    refine ⟨p, fun request he => absurd he (hne request), fun id hid => ?_, ?_⟩
    · have := (hother id hid).replies hne r
      simpa [Worker.held] using this
    · have hcount := hp.replies hne r
      have harr : ev.arriving = [] := by cases ev <;> first | rfl | exact absurd rfl (hne _)
      simp only [Worker.held, hrs, answers_append, harr, List.count_nil]
      constructor <;> omega

/-! ## Exits -/

/-- The exit is pending or in flight. -/
def HoldsExit (l : Lane) (ts : List Task) (exit : PendingExit) : Prop :=
  l.pendingExit = some exit ∨ ∃ t ∈ ts, t.op.kind = .commitPlayerExit exit

theorem HoldsExit.held_pos {l : Lane} {ts : List Task} {exit : PendingExit} (h : HoldsExit l ts exit) :
    0 < held l ts exit.reply := by
  unfold held
  rcases h with h | ⟨t, ht, hk⟩
  · have hin : exit.reply ∈ l.heldReplies := by simp [Lane.heldReplies, h]
    have := List.count_pos_iff.2 hin
    omega
  · have hin : exit.reply ∈ taskReplies ts := List.mem_filterMap.2 ⟨t, ht, by rw [hk, DispatchKind.reply]⟩
    have := List.count_pos_iff.2 hin
    omega

theorem LaneStep.holdsExit {set : List Task} {id : PlayerId} {ev : WorkerEvent} {l l' : Lane} {ts ts' : List Task}
    {rs : List (Reply × Option PlayerPersistenceResult)} (h : LaneStep set id ev l ts l' ts' rs) {exit : PendingExit}
    (he : HoldsExit l' ts' exit) : HoldsExit l ts exit ∨ ev = .recv (.commitPlayerExit exit) := by
  cases h with
  | kept => exact .inl he
  | @save save =>
    refine .inl (he.imp_left fun he => ?_)
    unfold Lane.queueSave at he
    split at he
    · exact he
    · split at he
      · split at he
        · split at he <;> exact he
        · exact he
      · exact he
  | exit =>
    rcases he with he | he
    · cases he
      exact .inr rfl
    · exact .inl (.inr he)
  | dispatched hidle hn =>
    refine .inl ?_
    unfold Lane.nextDispatch at hn
    split at hn
    · rename_i e hle
      cases hn
      rcases he with he | ⟨t, ht, hk⟩
      · cases he
      · rcases List.mem_append.1 ht with ht | ht
        · exact .inr ⟨t, ht, hk⟩
        · obtain rfl := List.mem_singleton.1 ht
          cases hk
          exact .inl hle
    · obtain ⟨save, hs, heq⟩ := Option.map_eq_some_iff.1 hn
      cases heq
      rcases he with he | ⟨t, ht, hk⟩
      · exact .inl he
      · rcases List.mem_append.1 ht with ht | ht
        · exact .inr ⟨t, ht, hk⟩
        · obtain rfl := List.mem_singleton.1 ht
          cases hk
  | @finished _ _ _ a b u _ _ =>
    refine .inl (he.imp_right ?_)
    rintro ⟨t, ht, hk⟩
    rcases List.mem_append.1 ht with ht | ht
    · exact ⟨t, List.mem_append_left _ ht, hk⟩
    · rcases List.mem_cons.1 ht with rfl | ht
      · exact ⟨u, by simp, hk⟩
      · exact ⟨t, by simp [ht], hk⟩
  | @joined _ _ _ a b u _ _ _ =>
    rcases he with he | ⟨t, ht, hk⟩
    · exact .inl (.inl (by simpa using he))
    · exact .inl (.inr ⟨t, by rcases List.mem_append.1 ht with ht | ht <;> simp [ht], hk⟩)
  | orphaned u =>
    refine .inl (he.imp_right ?_)
    rintro ⟨t, ht, hk⟩
    exact ⟨t, by rcases List.mem_append.1 ht with ht | ht <;> simp [ht], hk⟩
  | panicked =>
    refine .inl (he.imp_right ?_)
    rintro ⟨t, ht, hk⟩
    exact ⟨t, by rcases List.mem_append.1 ht with ht | ht <;> simp [ht], hk⟩

def Worker.HasExit (w : Worker) (exit : PendingExit) : Prop := ∃ id, HoldsExit (w.lane id) (w.tasks id) exit

theorem workerStep_hasExit {w w' : Worker} {ev : WorkerEvent} (h : workerStep w ev = some w') (hown : w.Own)
    {exit : PendingExit} (he : w'.HasExit exit) : w.HasExit exit ∨ ev = .recv (.commitPlayerExit exit) := by
  obtain ⟨id, he⟩ := he
  obtain ⟨rs, hstep⟩ := laneStep_of_workerStep h hown id
  exact (hstep.holdsExit he).imp_left fun he => ⟨id, he⟩

/-- The reply channel of an exit that has succeeded and waits to be joined. -/
def Task.committed (t : Task) : Option Reply :=
  match t.op.kind, t.result with
  | .commitPlayerExit exit, some (.ok ()) => some exit.reply
  | _, _ => none

theorem Task.committed_eq_some {t : Task} {r : Reply} (h : t.committed = some r) :
    ∃ exit, t.op.kind = .commitPlayerExit exit ∧ exit.reply = r ∧ t.result = some (.ok ()) := by
  unfold Task.committed at h
  split at h
  · rename_i exit hk hr
    exact ⟨exit, hk, Option.some.inj h, hr⟩
  · cases h

def Committed (ts : List Task) (r : Reply) : Prop := ∃ t ∈ ts, t.committed = some r

instance (ts : List Task) (r : Reply) : Decidable (Committed ts r) := inferInstanceAs (Decidable (∃ _ ∈ _, _))

theorem Committed.held_pos {l : Lane} {ts : List Task} {r : Reply} (h : Committed ts r) : 0 < held l ts r := by
  obtain ⟨t, ht, hc⟩ := h
  obtain ⟨exit, hk, rfl, _⟩ := Task.committed_eq_some hc
  exact HoldsExit.held_pos (.inr ⟨t, ht, hk⟩)

/-- The success of an exit is reported. -/
theorem LaneStep.committed {set : List Task} {id : PlayerId} {ev : WorkerEvent} {l l' : Lane} {ts ts' : List Task}
    {rs : List (Reply × Option PlayerPersistenceResult)} (h : LaneStep set id ev l ts l' ts' rs) (hok : LaneOk l ts)
    {r : Reply} (hc : Committed ts r) : Committed ts' r ∨ (r, some (.ok ())) ∈ rs := by
  cases h with
  | kept => exact .inl hc
  | save => exact .inl hc
  | exit => exact .inl hc
  | dispatched hidle hn =>
    obtain ⟨t, ht, h⟩ := hc
    exact .inl ⟨t, List.mem_append_left _ ht, h⟩
  | @finished _ _ _ a b u _ hr =>
    obtain ⟨t, ht, hc⟩ := hc
    refine .inl ⟨t, ?_, hc⟩
    rcases List.mem_append.1 ht with ht | ht
    · exact List.mem_append_left _ ht
    · rcases List.mem_cons.1 ht with rfl | ht
      · obtain ⟨_, _, _, hres⟩ := Task.committed_eq_some hc
        rw [hr] at hres
        cases hres
      · exact List.mem_append_right _ (List.mem_cons_of_mem _ ht)
  | @joined _ _ _ a b u result _ hr =>
    obtain ⟨rfl, rfl⟩ := hok.alone
    obtain ⟨t, ht, hc⟩ := hc
    obtain rfl : t = u := by simpa using ht
    obtain ⟨exit, hk, rfl, hres⟩ := Task.committed_eq_some hc
    rw [hr] at hres
    cases hres
    exact .inr (by simp [hk, Lane.complete])
  | orphaned u => cases hok.busy
  | @panicked _ _ a b u _ hr =>
    obtain ⟨rfl, rfl⟩ := hok.alone
    obtain ⟨t, ht, hc⟩ := hc
    obtain rfl : t = u := by simpa using ht
    obtain ⟨_, _, _, hres⟩ := Task.committed_eq_some hc
    rw [hr] at hres
    cases hres

theorem answers_pos {rs : List (Reply × Option PlayerPersistenceResult)} {r : Reply}
    {x : Option PlayerPersistenceResult}
    (h : (r, x) ∈ rs) : 0 < answers rs r := List.count_pos_iff.2 (List.mem_map.2 ⟨_, h, rfl⟩)

theorem mem_tasks_of_finish {w w' : Worker} {i : Nat} {result : PlayerPersistenceResult} {t : Task}
    (h : workerStep w (.finish i result) = some w') (ht : w.inFlight[i]? = some t) :
    { t with result := some result } ∈ w'.tasks t.op.playerId := by
  obtain ⟨t', ht', h⟩ := Option.bind_eq_some_iff.1 h
  rw [ht] at ht'
  cases ht'
  split at h
  · cases h
    exact List.mem_filter.2 ⟨List.mem_set (List.getElem?_eq_some_iff.1 ht).1 _, by simp⟩
  · cases h

theorem workerStep_committed {w w' : Worker} {ev : WorkerEvent} (h : workerStep w ev = some w') (hown : w.Own)
    {p : PlayerId} (hok : LaneOk (w.lane p) (w.tasks p)) {r : Reply}
    (hc : Committed (w.tasks p) r ∨ (r, some (.ok ())) ∈ w.replies) :
    Committed (w'.tasks p) r ∨ (r, some (.ok ())) ∈ w'.replies := by
  obtain ⟨p', rs, hrs, hp, hother⟩ := workerStep_spec h hown
  rw [hrs, List.mem_append]
  rcases hc with hc | hc
  · by_cases hid : p = p'
    · subst hid
      exact (hp.committed hok hc).imp_right .inr
    · rcases (hother p hid).committed hok hc with hc | hc
      · exact .inl hc
      · cases hc
  · exact .inr (.inl hc)

/-- A reply channel with one answer has no other. -/
theorem find?_of_answers {r : Reply} {y : Option PlayerPersistenceResult} :
    ∀ {rs : List (Reply × Option PlayerPersistenceResult)}, answers rs r ≤ 1 → (r, y) ∈ rs →
      rs.find? (fun x => x.1 = r) = some (r, y)
  | x :: rs, hle, hmem => by
    have hcons : answers (x :: rs) r = answers rs r + [x.1].count r := by simp [answers, List.count_cons]
    by_cases hx : x.1 = r
    · subst hx
      rw [List.find?_cons_of_pos (by simp)]
      rcases List.mem_cons.1 hmem with heq | hmem
      · rw [heq]
      · have hpos := answers_pos hmem
        simp at hcons
        omega
    · rw [List.find?_cons_of_neg (by simpa using hx)]
      rcases List.mem_cons.1 hmem with rfl | hmem
      · exact absurd rfl hx
      · exact find?_of_answers (by omega) hmem

/-! ## Where a success comes from -/

/-- A save holds the reply channel. -/
def SaveHolds (l : Lane) (ts : List Task) (r : Reply) : Prop :=
  (∃ save, l.pendingSave = some save ∧ save.reply = some r) ∨ ∃ t ∈ ts, ∃ save, t.op.kind = .save save ∧
    save.reply = some r

theorem SaveHolds.held_pos {l : Lane} {ts : List Task} {r : Reply} (h : SaveHolds l ts r) : 0 < held l ts r := by
  unfold held
  rcases h with ⟨save, hs, hr⟩ | ⟨t, ht, save, hk, hr⟩
  · have hin : r ∈ l.heldReplies := by simp [Lane.heldReplies, hs, hr]
    have := List.count_pos_iff.2 hin
    omega
  · have hin : r ∈ taskReplies ts := List.mem_filterMap.2 ⟨t, ht, by rw [hk, DispatchKind.reply, hr]⟩
    have := List.count_pos_iff.2 hin
    omega

theorem queueSave_pendingReply {l : Lane} {save held : PendingSave} {r : Reply}
    (h : (l.queueSave save).1.pendingSave = some held) (hr : held.reply = some r) :
    (∃ pending, l.pendingSave = some pending ∧ pending.reply = some r) ∨ save.reply = some r := by
  unfold Lane.queueSave at h
  split at h
  · exact .inl ⟨held, h, hr⟩
  · split at h
    · rename_i pending hp
      split at h
      · split at h
        · cases h
          exact .inl ⟨pending, hp, hr⟩
        · cases h
          rcases Option.or_eq_some_iff.1 hr with hr | ⟨_, hr⟩
          · exact .inr hr
          · exact .inl ⟨pending, hp, hr⟩
      · cases h
        exact .inl ⟨pending, hp, hr⟩
    · cases h
      exact .inr hr

theorem LaneStep.saveHolds {set : List Task} {id : PlayerId} {ev : WorkerEvent} {l l' : Lane} {ts ts' : List Task}
    {rs : List (Reply × Option PlayerPersistenceResult)} (h : LaneStep set id ev l ts l' ts' rs) {r : Reply}
    (hs : SaveHolds l' ts' r) : SaveHolds l ts r ∨ ∃ save, ev = .recv (.saveSnapshot save) ∧ save.reply = some r := by
  have hsub : ∀ {a b : List Task} {u : Task}, (∃ t ∈ a ++ b, ∃ save, t.op.kind = .save save ∧ save.reply = some r) →
      ∃ t ∈ a ++ u :: b, ∃ save, t.op.kind = .save save ∧ save.reply = some r := by
    rintro a b u ⟨t, ht, hk⟩
    exact ⟨t, by rcases List.mem_append.1 ht with ht | ht <;> simp [ht], hk⟩
  cases h with
  | kept => exact .inl hs
  | @save save =>
    rcases hs with ⟨held, hh, hr⟩ | hs
    · rcases queueSave_pendingReply hh hr with hp | hr
      · exact .inl (.inl hp)
      · exact .inr ⟨save, rfl, hr⟩
    · exact .inl (.inr hs)
  | exit =>
    rcases hs with ⟨held, hh, _⟩ | hs
    · cases hh
    · exact .inl (.inr hs)
  | dispatched hidle hn =>
    refine .inl ?_
    unfold Lane.nextDispatch at hn
    split at hn
    · cases hn
      rcases hs with hs | ⟨t, ht, hk⟩
      · exact .inl hs
      · rcases List.mem_append.1 ht with ht | ht
        · exact .inr ⟨t, ht, hk⟩
        · obtain rfl := List.mem_singleton.1 ht
          obtain ⟨_, hk, _⟩ := hk
          cases hk
    · obtain ⟨save, hps, heq⟩ := Option.map_eq_some_iff.1 hn
      cases heq
      rcases hs with ⟨_, hs, _⟩ | ⟨t, ht, hk⟩
      · cases hs
      · rcases List.mem_append.1 ht with ht | ht
        · exact .inr ⟨t, ht, hk⟩
        · obtain rfl := List.mem_singleton.1 ht
          obtain ⟨_, hk, hr⟩ := hk
          cases hk
          exact .inl ⟨save, hps, hr⟩
  | @finished _ _ _ a b u _ _ =>
    refine .inl (hs.imp_right ?_)
    rintro ⟨t, ht, hk⟩
    rcases List.mem_append.1 ht with ht | ht
    · exact ⟨t, List.mem_append_left _ ht, hk⟩
    · rcases List.mem_cons.1 ht with rfl | ht
      · exact ⟨u, by simp, hk⟩
      · exact ⟨t, by simp [ht], hk⟩
  | @joined _ _ _ a b u result _ _ =>
    rcases hs with ⟨held, hh, hr⟩ | hs
    · refine .inl ?_
      rw [Lane.settle_pendingSave] at hh
      cases hp : l.pendingSave with
      | some pending =>
        rw [Lane.complete_pendingSave hp] at hh
        cases hh
        exact .inl ⟨_, hp, hr⟩
      | none =>
        -- an autosave that is queued again
        refine .inr ⟨u, by simp, held, ?_, hr⟩
        unfold Lane.complete at hh
        dsimp only at hh
        split at hh
        · split at hh
          · split at hh
            · split at hh
              · rw [hp] at hh
                cases hh
              · cases hh
                assumption
            · rw [hp] at hh
              cases hh
          · rw [hp] at hh
            cases hh
        · rw [hp] at hh
          cases hh
    · exact .inl (.inr (hsub hs))
  | orphaned u => exact .inl (hs.imp_right hsub)
  | panicked => exact .inl (hs.imp_right hsub)

/-- A success that goes out is that of an exit, or of a save that held the channel. -/
theorem LaneStep.ok_answer {set : List Task} {id : PlayerId} {ev : WorkerEvent} {l l' : Lane} {ts ts' : List Task}
    {rs : List (Reply × Option PlayerPersistenceResult)} (h : LaneStep set id ev l ts l' ts' rs) {r : Reply}
    (hr : (r, some (.ok ())) ∈ rs) : Committed ts r ∨ SaveHolds l ts r := by
  have hdrop : ∀ {o : Option Reply}, (r, some (.ok ())) ∉ droppedReply o := by
    intro o
    cases o <;> simp [droppedReply]
  cases h with
  | kept => cases hr
  | save =>
    unfold Lane.queueSave at hr
    split at hr
    · simp at hr
    · split at hr
      · split at hr
        · split at hr
          · simp at hr
          · cases hr
        · exact absurd hr hdrop
      · cases hr
  | exit =>
    rcases List.mem_append.1 hr with hr | hr <;> exact absurd hr hdrop
  | dispatched => cases hr
  | finished => cases hr
  | @joined _ _ _ a b u result _ hres =>
    unfold Lane.complete at hr
    dsimp only at hr
    split at hr
    · rename_i save hk
      split at hr
      · split at hr
        · split at hr
          · exact absurd hr hdrop
          · cases hr
        · exact absurd hr hdrop
      · refine .inr (.inr ⟨u, by simp, save, hk, ?_⟩)
        cases hsr : save.reply with
        | none => simp [hsr] at hr
        | some r' =>
          simp only [hsr, Option.map_some, Option.toList_some, List.mem_singleton, Prod.mk.injEq] at hr
          rw [hr.1]
    · rename_i exit hk
      simp only [List.mem_singleton, Prod.mk.injEq, Option.some.injEq] at hr
      obtain ⟨rfl, rfl⟩ := hr
      exact .inl ⟨u, by simp, by simp [Task.committed, hk, hres]⟩
  | orphaned => exact absurd hr hdrop
  | panicked => exact absurd hr hdrop

theorem LaneStep.committed_origin {set : List Task} {id : PlayerId} {ev : WorkerEvent} {l l' : Lane}
    {ts ts' : List Task} {rs : List (Reply × Option PlayerPersistenceResult)} (h : LaneStep set id ev l ts l' ts' rs)
    {r : Reply} (hc : Committed ts' r) : Committed ts r ∨ ∃ i t exit, ev = .finish i (.ok ()) ∧ set[i]? = some t ∧
      t.op.kind = .commitPlayerExit exit ∧ exit.reply = r := by
  obtain ⟨t, ht, hc⟩ := hc
  cases h with
  | kept => exact .inl ⟨t, ht, hc⟩
  | save => exact .inl ⟨t, ht, hc⟩
  | exit => exact .inl ⟨t, ht, hc⟩
  | dispatched =>
    rcases List.mem_append.1 ht with ht | ht
    · exact .inl ⟨t, ht, hc⟩
    · obtain rfl := List.mem_singleton.1 ht
      obtain ⟨_, _, _, hres⟩ := Task.committed_eq_some hc
      cases hres
  | @finished i _ _ a b u hi _ =>
    rcases List.mem_append.1 ht with ht | ht
    · exact .inl ⟨t, by simp [ht], hc⟩
    · rcases List.mem_cons.1 ht with rfl | ht
      · obtain ⟨exit, hk, hr, hres⟩ := Task.committed_eq_some hc
        cases hres
        exact .inr ⟨i, u, exit, rfl, hi, hk, hr⟩
      · exact .inl ⟨t, by simp [ht], hc⟩
  | joined => exact .inl ⟨t, by rcases List.mem_append.1 ht with ht | ht <;> simp [ht], hc⟩
  | orphaned => exact .inl ⟨t, by rcases List.mem_append.1 ht with ht | ht <;> simp [ht], hc⟩
  | panicked => exact .inl ⟨t, by rcases List.mem_append.1 ht with ht | ht <;> simp [ht], hc⟩

/-- An exit with this reply channel has succeeded, and the connection has been or will be told. -/
def Worker.Succeeded (w : Worker) (r : Reply) : Prop :=
  (∃ id, Committed (w.tasks id) r) ∨ (r, some (.ok ())) ∈ w.replies

def Worker.SaveHolds (w : Worker) (r : Reply) : Prop := ∃ id, Persistence.SaveHolds (w.lane id) (w.tasks id) r

theorem workerStep_saveHolds {w w' : Worker} {ev : WorkerEvent} (h : workerStep w ev = some w') (hown : w.Own)
    {r : Reply} (hs : w'.SaveHolds r) :
    w.SaveHolds r ∨ ∃ save, ev = .recv (.saveSnapshot save) ∧ save.reply = some r := by
  obtain ⟨id, hs⟩ := hs
  obtain ⟨rs, hstep⟩ := laneStep_of_workerStep h hown id
  exact (hstep.saveHolds hs).imp_left fun hs => ⟨id, hs⟩

theorem workerStep_succeeded {w w' : Worker} {ev : WorkerEvent} (h : workerStep w ev = some w') (hown : w.Own)
    {r : Reply} (hs : w'.Succeeded r) :
    w.Succeeded r ∨ w.SaveHolds r ∨ ∃ i t exit, ev = .finish i (.ok ()) ∧ w.inFlight[i]? = some t ∧
      t.op.kind = .commitPlayerExit exit ∧ exit.reply = r := by
  rcases hs with ⟨id, hc⟩ | hr
  · obtain ⟨rs, hstep⟩ := laneStep_of_workerStep h hown id
    rcases hstep.committed_origin hc with hc | hfin
    · exact .inl (.inl ⟨id, hc⟩)
    · exact .inr (.inr hfin)
  · obtain ⟨p, rs, hrs, hp, _⟩ := workerStep_spec h hown
    rw [hrs] at hr
    rcases List.mem_append.1 hr with hr | hr
    · exact .inl (.inr hr)
    · rcases hp.ok_answer hr with hc | hs
      · exact .inl (.inl ⟨p, hc⟩)
      · exact .inr (.inl ⟨p, hs⟩)

end Zohar.Persistence
