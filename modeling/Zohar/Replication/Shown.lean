/-
What a player's client shows is the player and what the replication graph says it sees, at the end of every frame. Edges
of the graph come and go with the pushes that tell of them, except that the observers of a mob lose their edge at the
cleanup and hear of it at the projection: in between, what they are owed is counted as shown.
-/
import Zohar.Replication.Visibility

namespace Zohar.Replication

open Zohar.Lib Zohar.Spawn

/-- Every set in the order of the net ids. -/
def Iteration.byId : Iteration where
  list _ s := Quotient.liftOn s.1 (fun l => l.insertionSort (· ≤ ·)) fun a b h =>
    ((List.perm_insertionSort _ a).trans (h.trans (List.perm_insertionSort _ b).symm)).eq_of_pairwise
      (fun _ _ _ _ => le_antisymm) (List.pairwise_insertionSort _ a) (List.pairwise_insertionSort _ b)
  nodup := by
    rintro _ ⟨⟨l⟩, hl⟩
    exact (List.perm_insertionSort _ l).nodup_iff.2 hl
  mem := by
    rintro _ ⟨⟨l⟩, hl⟩ e
    exact List.mem_insertionSort _

/-! ## Replay -/

section
variable {self : EntityId} {shown : Finset EntityId}

theorem run_spawnBundle (w : MapWorld) {s : EntitySnapshot} (h : s.entityId ∉ shown) :
    run (showStep self) shown (w.spawnBundle s) = some (insert s.entityId shown) := by
  unfold MapWorld.spawnBundle
  split <;> simp [run_cons, showStep, h]

theorem run_spawns (w : MapWorld) : ∀ {snapshots : List EntitySnapshot} {shown : Finset EntityId},
    (snapshots.map EntitySnapshot.entityId).Nodup → (∀ s ∈ snapshots, s.entityId ∉ shown) →
    run (showStep self) shown (snapshots.flatMap w.spawnBundle) =
      some (shown ∪ (snapshots.map EntitySnapshot.entityId).toFinset)
  | [], shown, _, _ => by simp
  | s :: ss, shown, hn, hs => by
    obtain ⟨hns, hn⟩ := List.nodup_cons.1 hn
    rw [List.flatMap_cons, run_append, run_spawnBundle w (hs s List.mem_cons_self), Option.bind_some,
      run_spawns w hn]
    · congr 1
      ext t
      simp only [Finset.mem_union, Finset.mem_insert, List.mem_toFinset, List.map_cons, List.mem_cons]
      tauto
    · intro s' hs' hmem
      rcases Finset.mem_insert.1 hmem with he | hmem
      · exact hns (he ▸ List.mem_map_of_mem hs')
      · exact hs s' (List.mem_cons_of_mem _ hs') hmem

theorem run_despawns : ∀ {es : List EntityId} {shown : Finset EntityId}, es.Nodup → (∀ e ∈ es, e ∈ shown ∧ e ≠ self) →
    run (showStep self) shown (es.map PlayerEvent.entityDespawn) = some (shown \ es.toFinset)
  | [], shown, _, _ => by simp
  | e :: es, shown, hn, hs => by
    obtain ⟨hne, hn⟩ := List.nodup_cons.1 hn
    obtain ⟨he, hself⟩ := hs e List.mem_cons_self
    rw [List.map_cons, run_cons, showStep, if_pos he, if_neg hself, Option.bind_some, run_despawns hn]
    · congr 1
      ext t
      simp only [Finset.mem_sdiff, Finset.mem_erase, List.mem_toFinset, List.mem_cons]
      tauto
    · intro e' he'
      obtain ⟨hmem, hne'⟩ := hs e' (List.mem_cons_of_mem _ he')
      exact ⟨Finset.mem_erase.2 ⟨fun h => hne (h ▸ he'), hmem⟩, hne'⟩

/-- Events that neither spawn nor despawn change nothing. -/
theorem run_other (events : List OtherEvent) :
    run (showStep self) shown (events.map PlayerEvent.other) = some shown := by
  induction events with
  | nil => rfl
  | cons event events ih =>
    rw [List.map_cons, run_cons, showStep, Option.bind_some, ih]

end

/-! ## Who is there and what it was told -/

/-- The player or the kind of mob that an entity is. -/
def Actor.identity : Actor → PlayerId ⊕ MobId
  | .player p => .inl p.playerId
  | .mob m => .inr m.mobId

def Actor.told : Actor → List PlayerEvent
  | .player p => p.pushed
  | .mob _ => []

/-- The calls to one recipient. -/
def callsTo (e : EntityId) (calls : List (EntityId × PlayerEvent)) : List PlayerEvent :=
  (calls.filter fun call => call.1 = e).map (·.2)

theorem callsTo_append (e : EntityId) (cs ds : List (EntityId × PlayerEvent)) :
    callsTo e (cs ++ ds) = callsTo e cs ++ callsTo e ds := by
  simp [callsTo]

theorem callsTo_map_self (e r : EntityId) (events : List PlayerEvent) :
    callsTo e (events.map fun event => (r, event)) = if r = e then events else [] := by
  simp only [callsTo, List.filter_map, List.map_map, Function.comp_def]
  split
  · rename_i h
    simp [h]
  · rename_i h
    simp [h]

theorem callsTo_notices (e : EntityId) (notices : List (EntityId × OtherEvent)) :
    callsTo e (notices.map fun notice => (notice.1, PlayerEvent.other notice.2)) =
      ((notices.filter fun notice => notice.1 = e).map (·.2)).map PlayerEvent.other := by
  simp [callsTo, List.filter_map, Function.comp_def]

theorem callsTo_broadcast (e : EntityId) {recipients : List EntityId} (hn : recipients.Nodup) (event : PlayerEvent) :
    callsTo e (recipients.map fun r => (r, event)) = if e ∈ recipients then [event] else [] := by
  simp only [callsTo, List.filter_map, List.map_map, Function.comp_def, List.map_const', ← List.countP_eq_length_filter]
  rw [show recipients.countP (fun r => decide (r = e)) = recipients.count e from
    List.countP_congr fun r _ => by simp]
  split
  · rename_i h
    rw [List.count_eq_one_of_mem hn h]
    rfl
  · rename_i h
    rw [List.count_eq_zero_of_not_mem h]
    rfl

namespace MapWorld

def identity (w : MapWorld) (e : EntityId) : Option (PlayerId ⊕ MobId) := (w.actors.get? e).map Actor.identity

def told (w : MapWorld) (e : EntityId) : List PlayerEvent := ((w.actors.get? e).map Actor.told).getD []

variable {cfg : MapConfig} {w w' : MapWorld}

theorem identity_eq_player {e : EntityId} {pid : PlayerId} (h : w.identity e = some (.inl pid)) :
    ∃ p, w.actors.get? e = some (.player p) ∧ p.playerId = pid ∧ w.told e = p.pushed := by
  obtain ⟨a, ha, hid⟩ := Option.map_eq_some_iff.1 h
  cases a with
  | player p => exact ⟨p, ha, Sum.inl.inj hid, by rw [told, ha]; rfl⟩
  | mob m => cases hid

theorem identity_of_player {e : EntityId} {p : PlayerActor} (h : w.actors.get? e = some (.player p)) :
    w.identity e = some (.inl p.playerId) := by
  rw [identity, h]; rfl

theorem isSome_identity (e : EntityId) : (w.identity e).isSome = (w.actors.get? e).isSome := Option.isSome_map

/-! ### Pushes -/

/-- The same entities, and the same graph and indexes: what was pushed may differ, and where everybody is. -/
structure SameBut (w w' : MapWorld) : Prop where
  identity : w'.identity = w.identity
  graph : w'.graph = w.graph
  playerIndex : w'.playerIndex = w.playerIndex
  despawned : w'.despawned = w.despawned

theorem SameBut.refl (w : MapWorld) : SameBut w w := ⟨rfl, rfl, rfl, rfl⟩

theorem SameBut.trans {w'' : MapWorld} (h : SameBut w w') (h' : SameBut w' w'') : SameBut w w'' :=
  ⟨h'.identity.trans h.identity, h'.graph.trans h.graph, h'.playerIndex.trans h.playerIndex,
    h'.despawned.trans h.despawned⟩

/-- An entity that is replaced by itself, elsewhere or with another outbox. -/
theorem identity_insert {e : EntityId} {a b : Actor} (ha : w.actors.get? e = some a) (hb : b.identity = a.identity) :
    { w with actors := w.actors.insert e b }.identity = w.identity := by
  funext x
  simp only [identity, OrdMap.get?_insert]
  split
  · rename_i hx
    rw [hx, ha]
    exact congrArg some hb
  · rfl

theorem pushReliable_same (w : MapWorld) (e : EntityId) (event : PlayerEvent) : SameBut w (w.pushReliable e event) := by
  unfold pushReliable
  split
  · rename_i p hp
    exact ⟨identity_insert hp rfl, rfl, rfl, rfl⟩
  · exact .refl w
  · exact .refl w

theorem told_pushReliable {x : EntityId} {pid : PlayerId} (hx : w.identity x = some (.inl pid)) (e : EntityId)
    (event : PlayerEvent) : (w.pushReliable e event).told x = w.told x ++ if e = x then [event] else [] := by
  obtain ⟨p, hp, -, -⟩ := identity_eq_player hx
  by_cases he : e = x
  · subst he
    simp [pushReliable, hp, told, OrdMap.get?_insert, Actor.told]
  · rw [if_neg he, List.append_nil]
    unfold pushReliable
    split
    · simp [told, OrdMap.get?_insert, Ne.symm he]
    · rfl
    · rfl

theorem deliver_same : ∀ (calls : List (EntityId × PlayerEvent)) (w : MapWorld), SameBut w (w.deliver calls)
  | [], w => .refl w
  | c :: cs, w => (pushReliable_same w c.1 c.2).trans (deliver_same cs (w.pushReliable c.1 c.2))

theorem told_deliver : ∀ (calls : List (EntityId × PlayerEvent)) {w : MapWorld} {x : EntityId} {pid : PlayerId},
    w.identity x = some (.inl pid) → (w.deliver calls).told x = w.told x ++ callsTo x calls
  | [], w, x, pid, _ => by simp [deliver, callsTo]
  | c :: cs, w, x, pid, hx => by
    have hc := (pushReliable_same w c.1 c.2).identity
    rw [deliver, List.foldl_cons, ← deliver, told_deliver cs (by rw [hc]; exact hx), told_pushReliable hx,
      List.append_assoc, show callsTo x (c :: cs) = callsTo x [c] ++ callsTo x cs from callsTo_append x [c] cs]
    congr 2
    unfold callsTo
    split
    · rename_i h; simp [h]
    · rename_i h; simp [h]

/-! ## The invariant -/

/-- What ties entities, indexes and the graph together: a player sees entities that exist, and only players see. -/
structure Wf (cfg : MapConfig) (w : MapWorld) : Prop where
  known : ∀ e m, w.identity e = some (.inr m) → m ∈ cfg.mobs
  indexed : ∀ e pid, w.identity e = some (.inl pid) ↔ w.playerIndex.get? pid = some e
  observer : ∀ o t, t ∈ w.graph.visible o → ∃ pid, w.identity o = some (.inl pid)
  target : ∀ o t, t ∈ w.graph.visible o → (w.identity t).isSome ∧ t ≠ o

/-- Nothing waits for the projection, and every player is shown itself and what it sees. -/
structure Settled (cfg : MapConfig) (w : MapWorld) : Prop extends Wf cfg w where
  despawned : w.despawned = []
  shown : ∀ o pid, w.identity o = some (.inl pid) → replay o (w.told o) = some (insert o (w.graph.visible o))

theorem Wf.same (h : Wf cfg w) (hs : SameBut w w') : Wf cfg w' where
  known := by rw [hs.identity]; exact h.known
  indexed := by rw [hs.identity, hs.playerIndex]; exact h.indexed
  observer := by rw [hs.identity, hs.graph]; exact h.observer
  target := by rw [hs.identity, hs.graph]; exact h.target

/-- A step that leaves the graph alone is right if each player makes nothing of what it is told. -/
theorem Settled.same (h : Settled cfg w) (hs : SameBut w w')
    (ht : ∀ o pid, w.identity o = some (.inl pid) → ∃ events, w'.told o = w.told o ++ events ∧
      run (showStep o) (insert o (w.graph.visible o)) events = some (insert o (w.graph.visible o))) :
    Settled cfg w' where
  toWf := h.toWf.same hs
  despawned := hs.despawned.trans h.despawned
  shown := by
    intro o pid ho
    rw [hs.identity] at ho
    obtain ⟨events, htold, hrun⟩ := ht o pid ho
    rw [htold, hs.graph, replay, run_append, ← replay, h.shown o pid ho]
    exact hrun

/-! ## Snapshots -/

theorem entityId_of_makeEntitySnapshot {e : EntityId} {s : EntitySnapshot} (h : w.makeEntitySnapshot cfg e = some s) :
    s.entityId = e := by
  unfold makeEntitySnapshot at h
  split at h
  · cases h; rfl
  · split at h
    · cases h; rfl
    · cases h
  · cases h

theorem Wf.isSome_makeEntitySnapshot (h : Wf cfg w) (e : EntityId) :
    (w.makeEntitySnapshot cfg e).isSome = (w.identity e).isSome := by
  unfold makeEntitySnapshot
  split
  · rename_i p hp
    rw [identity, hp]; rfl
  · rename_i m hm
    rw [if_pos (h.known e m.mobId (by rw [identity, hm]; rfl)), identity, hm]; rfl
  · rename_i hn
    rw [identity, hn]; rfl

theorem Wf.entityId_snapshots (h : Wf cfg w) (ts : List EntityId) :
    (ts.filterMap fun t => w.makeEntitySnapshot cfg t).map EntitySnapshot.entityId =
      ts.filter fun t => (w.identity t).isSome := by
  induction ts with
  | nil => rfl
  | cons t ts ih =>
    have ht := h.isSome_makeEntitySnapshot t
    cases hs : w.makeEntitySnapshot cfg t with
    | none =>
      rw [hs] at ht
      rw [List.filterMap_cons_none hs, List.filter_cons_of_neg (by simp [← ht]), ih]
    | some s =>
      rw [hs] at ht
      rw [List.filterMap_cons_some hs, List.filter_cons_of_pos (by simp [← ht]), List.map_cons, ih,
        entityId_of_makeEntitySnapshot hs]

/-! ## Reconcile -/

theorem mem_visible_rollback {o x t : EntityId} : ∀ {ts : List EntityId} {w : MapWorld},
    t ∈ (w.rollbackEnteredVisibility o ts).graph.visible x ↔ t ∈ w.graph.visible x ∧ ¬(x = o ∧ t ∈ ts)
  | [], w => by simp [rollbackEnteredVisibility]
  | t' :: ts, w => by
    change t ∈ (rollbackEnteredVisibility { w with graph := (w.graph.removeVisibility o t').2 } o ts).graph.visible x ↔
      _
    rw [mem_visible_rollback, ReplicationGraph.visible_removeVisibility]
    split
    · rename_i hx
      rw [hx, Finset.mem_erase, List.mem_cons]
      tauto
    · rename_i hx
      simp [hx]

/-- The observer is indexed and has an outbox: what has no snapshot is rolled back, the rest is told. -/
theorem queueVisibilityDiff_eq {o : VisibilityObserver} (hi : w.playerIndex.get? o.playerId = some o.netId)
    (ho : w.identity o.netId = some (.inl o.playerId)) (diff : VisibilityDiff) :
    w.queueVisibilityDiff cfg o diff =
      (w.rollbackEnteredVisibility o.netId (diff.entered.filter fun t => (w.makeEntitySnapshot cfg t).isNone)).deliver
        (((diff.entered.filterMap fun t => w.makeEntitySnapshot cfg t).flatMap w.spawnBundle ++
          diff.left.map PlayerEvent.entityDespawn).map fun event => (o.netId, event)) := by
  obtain ⟨p, hp, -, -⟩ := identity_eq_player ho
  rw [queueVisibilityDiff, hi]
  dsimp only
  rw [show (w.rollbackEnteredVisibility o.netId _).actors.get? o.netId = some (.player p) from hp]
  rfl

section
variable (it : Iteration) {o : VisibilityObserver}

/-- The diff of a reconcile, and who sees what after what has no snapshot is rolled back. -/
theorem Wf.mem_visible_reconciled (h : Wf cfg w) {netId : EntityId} {S R : Finset EntityId} {x t : EntityId} :
    t ∈ ({ w with graph := (w.graph.reconcileObserver it netId S R).2 }.rollbackEnteredVisibility netId
        ((w.graph.reconcileObserver it netId S R).1.entered.filter fun t =>
          (w.makeEntitySnapshot cfg t).isNone)).graph.visible x ↔
      if x = netId then
        (t ∈ w.graph.visible netId ∧ t ∈ R ∨ t ∈ S) ∧ (w.identity t).isSome
      else t ∈ w.graph.visible x := by
  rw [mem_visible_rollback, ReplicationGraph.visible_reconcileObserver]
  by_cases hx : x = netId
  · have hexists : t ∈ w.graph.visible netId → (w.identity t).isSome := fun ht => (h.target netId t ht).1
    have hfailed : (w.makeEntitySnapshot cfg t).isNone = !(w.identity t).isSome := by
      rw [← h.isSome_makeEntitySnapshot, Option.not_isSome]
    rw [if_pos hx, if_pos hx, List.mem_filter, ReplicationGraph.reconcileObserver, it.mem, Finset.mem_sdiff,
      Finset.mem_union,
      Finset.mem_inter, hfailed]
    cases hi : (w.identity t).isSome with
    | true => simp
    | false =>
      have hnot : t ∉ w.graph.visible netId := fun ht => by simp [hexists ht] at hi
      simp [hnot, hx]
  · rw [if_neg hx, if_neg hx]
    simp [hx]

/-- The spawns and despawns of a reconcile take the old visible set to the new one. -/
theorem Wf.run_reconciled (h : Wf cfg w) {netId : EntityId} {S R : Finset EntityId} (hself : netId ∉ S)
    {r : VisibilityDiff × ReplicationGraph} (hr : w.graph.reconcileObserver it netId S R = r) {V : Finset EntityId}
    (hV : ∀ t, t ∈ V ↔ (t ∈ w.graph.visible netId ∧ t ∈ R ∨ t ∈ S) ∧ (w.identity t).isSome) :
    run (showStep netId) (insert netId (w.graph.visible netId))
      ((r.1.entered.filterMap fun t => w.makeEntitySnapshot cfg t).flatMap w.spawnBundle ++
        r.1.left.map PlayerEvent.entityDespawn) = some (insert netId V) := by
  subst hr
  set r := w.graph.reconcileObserver it netId S R
  have hentered : ∀ t, t ∈ r.1.entered ↔ (t ∈ w.graph.visible netId ∧ t ∈ R ∨ t ∈ S) ∧ t ∉ w.graph.visible netId := by
    intro t
    simp only [r, ReplicationGraph.reconcileObserver, it.mem, Finset.mem_sdiff, Finset.mem_union, Finset.mem_inter]
  have hleft : ∀ t, t ∈ r.1.left ↔ t ∈ w.graph.visible netId ∧ ¬(t ∈ w.graph.visible netId ∧ t ∈ R ∨ t ∈ S) := by
    intro t
    simp only [r, ReplicationGraph.reconcileObserver, it.mem, Finset.mem_sdiff, Finset.mem_union, Finset.mem_inter]
  have hnotself : netId ∉ w.graph.visible netId := fun ht => (h.target netId netId ht).2 rfl
  have hids := h.entityId_snapshots r.1.entered
  rw [run_append, run_spawns, hids, Option.bind_some, run_despawns]
  · congr 1
    ext t
    have hexists : t ∈ w.graph.visible netId → (w.identity t).isSome := fun ht => (h.target netId t ht).1
    simp only [Finset.mem_sdiff, Finset.mem_union, Finset.mem_insert, List.mem_toFinset, List.mem_filter,
      hentered, hleft, hV]
    by_cases ht : t = netId
    · subst ht
      simp [hnotself]
    · tauto
  · exact it.nodup _ _
  · intro e he
    obtain ⟨hmem, -⟩ := (hleft e).1 he
    exact ⟨Finset.mem_union_left _ (Finset.mem_insert_of_mem hmem), (h.target netId e hmem).2⟩
  · rw [hids]
    exact (it.nodup _ _).filter _
  · intro s hs hmem
    have hin : s.entityId ∈ r.1.entered := by
      have := List.mem_map_of_mem (f := EntitySnapshot.entityId) hs
      rw [hids] at this
      exact (List.mem_filter.1 this).1
    obtain ⟨hnew, hold⟩ := (hentered _).1 hin
    rcases Finset.mem_insert.1 hmem with he | hmem
    · rcases hnew with ⟨hv, -⟩ | hs
      · exact hold hv
      · exact hself (he ▸ hs)
    · exact hold hmem

/-- A reconcile of a player on the map: its visible set is replaced, and `events` tell it so. -/
structure Reconciled (w : MapWorld) (netId : EntityId) (w₁ : MapWorld) (events : List PlayerEvent) : Prop where
  rest : w₁ = { w with graph := w₁.graph }
  others : ∀ x, x ≠ netId → w₁.graph.visible x = w.graph.visible x
  target : ∀ t ∈ w₁.graph.visible netId, (w.identity t).isSome ∧ t ≠ netId
  told : run (showStep netId) (insert netId (w.graph.visible netId)) events =
    some (insert netId (w₁.graph.visible netId))

theorem Wf.reconcileOneObserver_eq (h : Wf cfg w) (ho : w.identity o.netId = some (.inl o.playerId)) :
    ∃ w₁ events, Reconciled w o.netId w₁ events ∧
      w.reconcileOneObserver cfg it o = w₁.deliver (events.map fun event => (o.netId, event)) := by
  have hself : o.netId ∉ w.visibilityCandidates cfg o.pos InterestConfig.default.spawnRadius o.netId := by
    simp [visibilityCandidates]
  refine ⟨_, _, ?_, queueVisibilityDiff_eq (w := { w with graph := (w.graph.reconcileObserver it o.netId
    (w.visibilityCandidates cfg o.pos InterestConfig.default.spawnRadius o.netId)
    (w.visibilityCandidates cfg o.pos InterestConfig.default.despawnRadius o.netId)).2 }) ((h.indexed _ _).1 ho) ho _⟩
  refine ⟨rfl, fun x hx => ?_, fun t ht => ?_, ?_⟩
  · ext t
    exact (h.mem_visible_reconciled it).trans (by rw [if_neg hx])
  · obtain ⟨hcandidate, hexists⟩ := (if_pos rfl).mp ((h.mem_visible_reconciled it).1 ht)
    refine ⟨hexists, ?_⟩
    rcases hcandidate with ⟨hv, -⟩ | hs
    · exact (h.target _ _ hv).2
    · rintro rfl; exact hself hs
  · exact h.run_reconciled it hself rfl fun t => (h.mem_visible_reconciled it).trans (by rw [if_pos rfl])

theorem Settled.reconcileOneObserver (h : Settled cfg w) (ho : w.identity o.netId = some (.inl o.playerId)) :
    Settled cfg (w.reconcileOneObserver cfg it o) ∧ (w.reconcileOneObserver cfg it o).identity = w.identity := by
  obtain ⟨w₁, events, hr, heq⟩ := h.toWf.reconcileOneObserver_eq it ho
  have hsame := deliver_same (events.map fun event => (o.netId, event)) w₁
  rw [← heq] at hsame
  have hw₁ : w₁.identity = w.identity := by rw [hr.rest]; rfl
  have hwf : Wf cfg w₁ := by
    refine ⟨?_, ?_, fun x t ht => ?_, fun x t ht => ?_⟩
    · rw [hw₁]; exact h.known
    · rw [hw₁, hr.rest]; exact h.indexed
    · rw [hw₁]
      by_cases hx : x = o.netId
      · exact ⟨_, hx ▸ ho⟩
      · exact h.observer x t (hr.others x hx ▸ ht)
    · rw [hw₁]
      by_cases hx : x = o.netId
      · subst hx; exact hr.target t ht
      · exact h.target x t (hr.others x hx ▸ ht)
  have hdespawned : w₁.despawned = w.despawned := by rw [hr.rest]
  refine ⟨⟨hwf.same hsame, hsame.despawned.trans (hdespawned.trans h.despawned), fun x pid hx => ?_⟩,
    hsame.identity.trans hw₁⟩
  rw [hsame.identity, hw₁] at hx
  have htold : w₁.told x = w.told x := by rw [hr.rest]; rfl
  rw [heq, told_deliver _ (by rw [hw₁]; exact hx), htold, callsTo_map_self, replay, run_append, ← replay,
    h.shown x pid hx, Option.bind_some, ← heq, hsame.graph]
  split
  · rename_i hxo
    subst hxo
    exact hr.told
  · rename_i hxo
    rw [run_nil, hr.others x (Ne.symm hxo)]

/-- The players do not change during the pass. -/
theorem Settled.reconcileAll : ∀ {observers : List VisibilityObserver} {w : MapWorld}, Settled cfg w →
    (∀ o ∈ observers, w.identity o.netId = some (.inl o.playerId)) →
    Settled cfg (observers.foldl (MapWorld.reconcileOneObserver cfg it) w)
  | [], w, h, _ => h
  | o :: os, w, h, hos => by
    obtain ⟨hs, hid⟩ := h.reconcileOneObserver it (hos o List.mem_cons_self)
    refine hs.reconcileAll fun o' ho' => ?_
    rw [hid]
    exact hos o' (List.mem_cons_of_mem _ ho')

theorem Settled.withDirty (h : Settled cfg w) (isDirty : Bool) : Settled cfg { w with isDirty } :=
  ⟨⟨h.known, h.indexed, h.observer, h.target⟩, h.despawned, h.shown⟩

theorem Settled.aoiReconcile (h : Settled cfg w) : Settled cfg (w.aoiReconcile cfg it) := by
  unfold MapWorld.aoiReconcile
  split
  · exact h
  · refine (h.reconcileAll it fun o ho => ?_).withDirty false
    obtain ⟨e, -, he⟩ := List.mem_filterMap.1 ho
    unfold observer? at he
    split at he
    · rename_i p hp
      cases he
      exact identity_of_player hp
    · cases he
    · cases he

end

/-! ## Entering and leaving -/

section
variable (it : Iteration)

/-- Nobody sees the entity, and it sees nobody. -/
theorem visible_removed (g : ReplicationGraph) (e x : EntityId) :
    ((g.removeObserver it e).2.removeTarget it e).2.visible x = if x = e then ∅ else (g.visible x).erase e := by
  rw [ReplicationGraph.visible_removeTarget, ReplicationGraph.visible_removeObserver]
  split
  · rfl
  · rfl

theorem identity_erased {e x : EntityId} {y : PlayerId ⊕ MobId}
    (hid : w'.identity = fun x => if x = e then none else w.identity x) (hx : w'.identity x = some y) :
    x ≠ e ∧ w.identity x = some y := by
  rw [hid] at hx
  dsimp only at hx
  split at hx
  · cases hx
  · exact ⟨‹_›, hx⟩

/-- An entity that is gone, with the edges that led to it and from it. -/
theorem Wf.erased (h : Wf cfg w) {e : EntityId} (hid : w'.identity = fun x => if x = e then none else w.identity x)
    (hvisible : ∀ x, w'.graph.visible x = if x = e then ∅ else (w.graph.visible x).erase e)
    (hindex : ∀ x pid, w'.playerIndex.get? pid = some x ↔ x ≠ e ∧ w.identity x = some (.inl pid)) : Wf cfg w' := by
  have hold : ∀ {x y}, w'.identity x = some y → x ≠ e ∧ w.identity x = some y := fun hx => identity_erased hid hx
  have hedge : ∀ {x t}, t ∈ w'.graph.visible x → x ≠ e ∧ t ≠ e ∧ t ∈ w.graph.visible x := by
    intro x t ht
    rw [hvisible] at ht
    split at ht
    · simp at ht
    · obtain ⟨hne, ht⟩ := Finset.mem_erase.1 ht
      exact ⟨‹_›, hne, ht⟩
  have hkept : ∀ {x}, x ≠ e → w'.identity x = w.identity x := by
    intro x hx
    rw [hid]
    exact if_neg hx
  refine ⟨fun x m hx => h.known x m (hold hx).2, fun x pid => (Iff.intro hold fun hx => ?_).trans (hindex x pid).symm,
    fun x t ht => ?_, fun x t ht => ?_⟩
  · rw [hkept hx.1]; exact hx.2
  · obtain ⟨hx, -, ht⟩ := hedge ht
    rw [hkept hx]; exact h.observer x t ht
  · obtain ⟨-, hte, ht⟩ := hedge ht
    rw [hkept hte]; exact h.target x t ht

/-- Those who saw the player are told that it is gone; the others are told nothing. -/
theorem Settled.onPlayerRemoved (h : Settled cfg w) {e : EntityId} {pid : PlayerId}
    (he : w.identity e = some (.inl pid)) :
    Settled cfg (w.onPlayerRemoved it e) ∧
      (w.onPlayerRemoved it e).identity = (fun x => if x = e then none else w.identity x) := by
  obtain ⟨p, hp, hpid, -⟩ := identity_eq_player he
  set recipients := ((w.graph.removeObserver it e).2.removeTarget it e).1.filter fun observer =>
    (w.actors.get? observer).isSome && observer != e with hrecipients
  have hnodup : recipients.Nodup := (it.nodup _ _).filter _
  have hmem : ∀ {x pid'}, x ≠ e → w.identity x = some (.inl pid') → (x ∈ recipients ↔ e ∈ w.graph.visible x) := by
    intro x pid' hx hplayer
    rw [hrecipients, List.mem_filter, ReplicationGraph.mem_removeTarget,
      ReplicationGraph.visible_removeObserver, if_neg hx,
      ← isSome_identity, hplayer]
    simp [hx]
  have hsame := deliver_same (recipients.map fun r => (r, .entityDespawn e)) w
  set w' := w.onPlayerRemoved it e with hw'
  rw [MapWorld.onPlayerRemoved, hp] at hw'
  dsimp only at hw'
  rw [← hrecipients] at hw'
  have hactors : ∀ x, w'.actors.get? x =
      if x = e then none else (w.deliver (recipients.map fun r => (r, .entityDespawn e))).actors.get? x := by
    intro x
    rw [hw', OrdMap.get?_erase]
    congr
  have hid : w'.identity = fun x => if x = e then none else w.identity x := by
    funext x
    rw [identity, hactors]
    split
    · rfl
    · exact congrFun hsame.identity x
  have hvisible : ∀ x, w'.graph.visible x = if x = e then ∅ else (w.graph.visible x).erase e := by
    rw [hw']; exact visible_removed it w.graph e
  refine ⟨⟨h.toWf.erased hid hvisible fun x pid' => ?_, ?_, fun x pid' hx => ?_⟩, hid⟩
  · rw [hw']
    dsimp only
    rw [OrdMap.get?_erase, hsame.playerIndex, hpid]
    by_cases hpid' : pid' = pid
    · subst hpid'
      rw [if_pos rfl]
      refine iff_of_false (by simp) ?_
      rintro ⟨hx, hplayer⟩
      have := ((h.indexed x pid').1 hplayer).symm.trans ((h.indexed e pid').1 he)
      exact hx (Option.some.inj this)
    · rw [if_neg hpid', h.indexed]
      refine ⟨fun hx => ⟨?_, hx⟩, fun hx => hx.2⟩
      rintro rfl
      rw [(h.indexed x pid').2 hx] at he
      exact hpid' (Sum.inl.inj (Option.some.inj he))
  · rw [hw']; exact hsame.despawned.trans h.despawned
  · obtain ⟨hxe, hplayer⟩ := identity_erased hid hx
    have htold : w'.told x = w.told x ++ if e ∈ w.graph.visible x then [.entityDespawn e] else [] := by
      rw [told, hactors, if_neg hxe, ← told, told_deliver _ hplayer, callsTo_broadcast x hnodup]
      simp only [hmem hxe hplayer]
    rw [htold, hvisible, if_neg hxe, replay, run_append, ← replay, h.shown x pid' hplayer, Option.bind_some]
    split
    · rename_i hsees
      rw [show [PlayerEvent.entityDespawn e] = [e].map PlayerEvent.entityDespawn from rfl,
        run_despawns (List.nodup_singleton e)]
      · congr 1
        ext t
        have : t = x → t ≠ e := fun ht => ht ▸ hxe
        simp only [Finset.mem_sdiff, Finset.mem_insert, List.mem_toFinset, List.mem_singleton, Finset.mem_erase]
        tauto
      · intro e' he'
        obtain rfl := List.mem_singleton.1 he'
        exact ⟨Finset.mem_insert_of_mem hsees, Ne.symm hxe⟩
    · rename_i hsees
      rw [run_nil, Finset.erase_eq_of_notMem hsees]

theorem Settled.handlePlayerLeave (h : Settled cfg w) (playerId : PlayerId) (playerNetId : EntityId) :
    Settled cfg (w.handlePlayerLeave it playerId playerNetId) := by
  unfold MapWorld.handlePlayerLeave
  split
  · rename_i e he
    split
    · exact (h.onPlayerRemoved it ((h.indexed e playerId).2 he)).1
    · exact h
  · exact h

/-- Whoever had the player's id before is gone once it enters. -/
theorem Settled.despawnExisting (h : Settled cfg w) (playerId : PlayerId) :
    Settled cfg (w.despawnExisting it playerId) ∧
      (∀ e, w.identity e = none → (w.despawnExisting it playerId).identity e = none) ∧
      (∀ e, w.playerIndex.get? playerId = some e → (w.despawnExisting it playerId).identity e = none) ∧
      ∀ e, (w.despawnExisting it playerId).identity e ≠ some (.inl playerId) := by
  unfold MapWorld.despawnExisting
  split
  · rename_i e he
    obtain ⟨hs, hid⟩ := h.onPlayerRemoved it ((h.indexed e playerId).2 he)
    refine ⟨hs, fun x hx => ?_, fun x hx => ?_, fun x hx => ?_⟩
    · rw [hid]
      dsimp only
      split
      · rfl
      · exact hx
    · rw [he] at hx
      cases hx
      rw [hid]
      exact if_pos rfl
    · rw [hid] at hx
      dsimp only at hx
      split at hx
      · cases hx
      · rename_i hne
        exact hne (Option.some.inj (((h.indexed x playerId).1 hx).symm.trans he))
  · rename_i hnone
    refine ⟨h, fun _ hx => hx, fun e he => ?_, fun e he => ?_⟩
    · rw [he] at hnone
      cases hnone
    · rw [(h.indexed e playerId).1 he] at hnone
      cases hnone

/-- An entity that is new on the map sees nobody and is seen by nobody. -/
theorem Wf.unseen (h : Wf cfg w) {e : EntityId} (he : w.identity e = none) :
    w.graph.visible e = ∅ ∧ ∀ x, e ∉ w.graph.visible x := by
  constructor
  · refine Finset.eq_empty_of_forall_notMem fun t ht => ?_
    obtain ⟨pid, hp⟩ := h.observer e t ht
    rw [hp] at he
    cases he
  · intro x hx
    have := (h.target x e hx).1
    rw [he] at this
    cases this

/-- A new entity, which was told of itself if it is a player. -/
theorem Settled.added (h : Settled cfg w) {e : EntityId} {a : Actor} (hfree : w.identity e = none)
    (hactors : w'.actors = w.actors.insert e a) (hgraph : w'.graph = w.graph) (hdespawned : w'.despawned = w.despawned)
    (hindex : ∀ x pid, w'.playerIndex.get? pid = some x ↔ if x = e then a.identity = .inl pid else w.identity x =
      some (.inl pid))
    (hknown : ∀ m, a.identity = .inr m → m ∈ cfg.mobs)
    (hshown : ∀ pid, a.identity = .inl pid → replay e a.told = some {e}) : Settled cfg w' := by
  obtain ⟨hsees, hseen⟩ := h.toWf.unseen hfree
  have hid : ∀ x, w'.identity x = if x = e then some a.identity else w.identity x := by
    intro x
    rw [identity, hactors, OrdMap.get?_insert]
    split <;> simp_all [identity]
  have htold : ∀ x, w'.told x = if x = e then a.told else w.told x := by
    intro x
    rw [told, hactors, OrdMap.get?_insert]
    split <;> simp_all [told]
  refine ⟨⟨fun x m hx => ?_, fun x pid => ?_, fun x t ht => ?_, fun x t ht => ?_⟩, hdespawned.trans h.despawned,
    fun x pid hx => ?_⟩
  · rw [hid] at hx
    split at hx
    · exact hknown m (Option.some.inj hx)
    · exact h.known x m hx
  · rw [hid, hindex]
    split
    · exact Option.some_inj
    · rfl
  · rw [hgraph] at ht
    rw [hid, if_neg]
    · exact h.observer x t ht
    · rintro rfl
      simp [hsees] at ht
  · rw [hgraph] at ht
    rw [hid, if_neg]
    · exact h.target x t ht
    · rintro rfl
      exact hseen x ht
  · rw [hid] at hx
    rw [htold, hgraph]
    split at hx
    · rename_i hxe; subst hxe
      rw [if_pos rfl, hsees, hshown pid (Option.some.inj hx)]
      rfl
    · rename_i hxe
      rw [if_neg hxe]
      exact h.shown x pid hx

/-- The id is nobody's, or that of the entity that the player has so far. -/
def FreshEnter (w : MapWorld) (msg : EnterMsg) : Prop :=
  w.actors.get? msg.playerNetId = none ∨ w.playerIndex.get? msg.playerId = some msg.playerNetId

instance (w : MapWorld) (msg : EnterMsg) : Decidable (FreshEnter w msg) := inferInstanceAs (Decidable (_ ∨ _))

theorem Settled.handlePlayerEnter (h : Settled cfg w) {msg : EnterMsg} (hfresh : FreshEnter w msg) :
    Settled cfg (w.handlePlayerEnter cfg it msg) := by
  obtain ⟨hs, hgone, howngone, hreplaced⟩ := h.despawnExisting it msg.playerId
  have hfree : (w.despawnExisting it msg.playerId).identity msg.playerNetId = none := by
    rcases hfresh with hnobody | hown
    · exact hgone _ (by rw [identity, hnobody]; rfl)
    · exact howngone _ hown
  unfold MapWorld.handlePlayerEnter
  refine Settled.withDirty (Settled.reconcileOneObserver it ?_ ?_).1 true
  swap
  · simp [identity, OrdMap.get?_insert, Actor.identity]
  refine hs.added hfree rfl rfl rfl (fun x pid => ?_) (fun m hm => ?_) fun pid _ => ?_
  · dsimp only
    rw [OrdMap.get?_insert]
    by_cases hpid : pid = msg.playerId
    · subst hpid
      rw [if_pos rfl]
      by_cases hx : x = msg.playerNetId
      · simp [hx, Actor.identity]
      · simp [hx, Ne.symm hx, hreplaced]
    · rw [if_neg hpid, ← hs.indexed]
      by_cases hx : x = msg.playerNetId
      · subst hx
        simp [hfree, Actor.identity, Ne.symm hpid]
      · simp [hx]
  · cases hm
  · simp [replay, Actor.told, run_cons, showStep]

/-! ## What comes in -/

def FreshInbound (w : MapWorld) : InboundEvent → Prop
  | .playerEnter msg _ => FreshEnter w msg
  | .reserveNetId | .playerLeave _ _ _ => True

instance (w : MapWorld) (ev : InboundEvent) : Decidable (FreshInbound w ev) :=
  match ev with
  | .playerEnter msg _ => inferInstanceAs (Decidable (FreshEnter w msg))
  | .reserveNetId | .playerLeave _ _ _ => .isTrue trivial

theorem Settled.inboundStep (h : Settled cfg w) {ev : InboundEvent} (hfresh : FreshInbound w ev)
    (hs : w.inboundStep cfg ev = some w') : Settled cfg w' := by
  cases ev with
  | reserveNetId =>
    cases hs
    exact ⟨⟨h.known, h.indexed, h.observer, h.target⟩, h.despawned, h.shown⟩
  | playerEnter msg order =>
    simp only [MapWorld.inboundStep] at hs
    split at hs
    · cases hs
      have herased : Settled cfg { w with reserved := w.reserved.erase msg.playerNetId } :=
        ⟨⟨h.known, h.indexed, h.observer, h.target⟩, h.despawned, h.shown⟩
      exact herased.handlePlayerEnter order hfresh
    · cases hs
  | playerLeave playerId playerNetId order =>
    cases hs
    exact h.handlePlayerLeave order playerId playerNetId

/-! ## Restart -/

theorem actorAudienceRecipients_nodup (w : MapWorld) (e : EntityId) : (w.actorAudienceRecipients it e).Nodup :=
  (List.nodup_dedup _).filter _

theorem Wf.mem_actorAudienceRecipients (h : Wf cfg w) {o e : EntityId} :
    o ∈ w.actorAudienceRecipients it e ↔ e ∈ w.graph.visible o := by
  rw [actorAudienceRecipients, List.mem_filter, List.mem_dedup, List.mem_insertionSort,
    ReplicationGraph.mem_observersFor]
  refine ⟨fun ho => ho.1, fun ho => ⟨ho, ?_⟩⟩
  obtain ⟨pid, hp⟩ := h.observer o e ho
  rw [← isSome_identity, hp]
  rfl

/-- The player that restarts is shown its surroundings anew, and its observers see it go and come. -/
theorem Wf.run_restartHere (h : Wf cfg w) {e : EntityId} {snapshot : EntitySnapshot} (hs : snapshot.entityId = e)
    (o : EntityId) :
    run (showStep o) (insert o (w.graph.visible o)) (callsTo o (w.restartHereCalls cfg it e snapshot)) =
      some (insert o (w.graph.visible o)) := by
  have hself : e ∉ w.graph.visible e := fun ht => (h.target e e ht).2 rfl
  have hn := actorAudienceRecipients_nodup it w e
  rw [restartHereCalls, callsTo_append, callsTo_append, broadcastActorEvent, broadcastActorEvent,
    callsTo_broadcast o hn,
    callsTo_broadcast o hn, callsTo_map_self]
  simp only [h.mem_actorAudienceRecipients it]
  by_cases ho : e = o
  · subst ho
    have hids := h.entityId_snapshots (w.graph.targetsFor it e)
    rw [if_neg hself, if_neg hself, if_pos rfl, List.nil_append, List.nil_append, List.cons_append, run_cons, showStep,
      if_pos (Finset.mem_insert_self _ _), if_pos rfl, Option.bind_some, run_append,
      run_spawnBundle w (Finset.notMem_empty _), Option.bind_some, run_spawns]
    · rw [hids, hs]
      congr 1
      ext t
      have hexists : t ∈ w.graph.visible e → (w.identity t).isSome := fun ht => (h.target e t ht).1
      simp only [Finset.mem_union, Finset.mem_insert, Finset.notMem_empty, or_false, List.mem_toFinset, List.mem_filter,
        ReplicationGraph.mem_targetsFor]
      tauto
    · rw [hids]
      exact (it.nodup _ _).filter _
    · intro s hmem hshown
      obtain ⟨t, ht, hsnapshot⟩ := List.mem_filterMap.1 hmem
      rw [entityId_of_makeEntitySnapshot hsnapshot, hs] at hshown
      rw [ReplicationGraph.mem_targetsFor] at ht
      have hte : t = e := by simpa using hshown
      exact hself (hte ▸ ht)
  · rw [if_neg ho, List.append_nil]
    split
    · rename_i hsees
      have hmem : e ∈ insert o (w.graph.visible o) := Finset.mem_insert_of_mem hsees
      rw [List.singleton_append, run_cons, showStep, if_pos hmem, if_neg ho, Option.bind_some, run_cons, showStep, hs,
        if_neg (Finset.notMem_erase _ _), Option.bind_some, run_nil, Finset.insert_erase hmem]
    · rfl

/-- Entities that have moved, or changed the way in which they do. -/
theorem Settled.moved (h : Settled cfg w) (hs : SameBut w w') (ht : w'.told = w.told) : Settled cfg w' :=
  h.same hs fun o _ _ => ⟨[], by rw [ht, List.append_nil], rfl⟩

theorem Settled.deliver (h : Settled cfg w) {calls : List (EntityId × PlayerEvent)}
    (hrun : ∀ o, run (showStep o) (insert o (w.graph.visible o)) (callsTo o calls) =
      some (insert o (w.graph.visible o))) :
    Settled cfg (w.deliver calls) :=
  h.same (deliver_same calls w) fun o _ ho => ⟨callsTo o calls, told_deliver calls ho, hrun o⟩

theorem Settled.notices (h : Settled cfg w) (notices : List (EntityId × OtherEvent)) :
    Settled cfg (w.deliver (notices.map fun notice => (notice.1, .other notice.2))) := by
  refine h.deliver fun o => ?_
  rw [callsTo_notices, run_other]

/-- A player that stays a player with its outbox. -/
theorem Settled.replacePlayer (h : Settled cfg w) {e : EntityId} {p : PlayerActor}
    (hp : w.actors.get? e = some (.player p)) (q : PlayerActor) (hid : q.playerId = p.playerId)
    (hpushed : q.pushed = p.pushed) (spatial : OrdMap EntityId LocalPos) (isDirty : Bool) :
    Settled cfg { w with actors := w.actors.insert e (.player q), spatial, isDirty } := by
  refine h.moved ⟨identity_insert hp (congrArg Sum.inl hid), rfl, rfl, rfl⟩ (funext fun x => ?_)
  simp only [told, OrdMap.get?_insert]
  split
  · rename_i hx
    rw [hx, hp]
    exact hpushed
  · rfl

theorem Settled.restartPlayer (h : Settled cfg w) (e : EntityId) (visibility : RestartVisibility) :
    Settled cfg (w.restartPlayer cfg it e visibility) := by
  unfold MapWorld.restartPlayer
  split
  · rename_i p hp
    dsimp only
    generalize hw₁ : MapWorld.pushReliable _ e (.other .chat) = w₁
    have h₁ : Settled cfg w₁ := hw₁ ▸ (h.replacePlayer hp { p with animation := .run } rfl rfl _ _).notices [(e, .chat)]
    split
    · split
      · exact h₁
      · rename_i snapshot hsnapshot
        exact (h₁.deliver fun o => h₁.toWf.run_restartHere it (entityId_of_makeEntitySnapshot hsnapshot) o).withDirty
          true
    · exact (h₁.notices [(e, .restartTown)]).withDirty true
  · exact h
  · exact h

end

/-! ## Mobs and movement -/

/-- The id that the mob gets, if it is spawned, is nobody's. -/
def FreshSpawn (cfg : MapConfig) (w : MapWorld) (spawn : MobSpawn) : Prop :=
  spawn.mobId ∈ cfg.mobs → w.actors.get? ⟨(nextEntityId w.nextNetId).toNat⟩ = none

instance (cfg : MapConfig) (w : MapWorld) (spawn : MobSpawn) : Decidable (FreshSpawn cfg w spawn) :=
  inferInstanceAs (Decidable (_ → _))

theorem Settled.spawnOneMob (h : Settled cfg w) {spawn : MobSpawn} (hfresh : FreshSpawn cfg w spawn) :
    Settled cfg (w.spawnOneMob cfg spawn) := by
  unfold MapWorld.spawnOneMob
  split
  · rename_i hknown
    have hfree : w.identity ⟨(nextEntityId w.nextNetId).toNat⟩ = none := by
      rw [identity, hfresh hknown]
      rfl
    refine h.added hfree rfl rfl rfl (fun x pid => ?_) (fun m hm => ?_) fun pid hpid => ?_
    · rw [← h.indexed]
      by_cases hx : x = ⟨(nextEntityId w.nextNetId).toNat⟩
      · subst hx
        simp [hfree, Actor.identity]
      · simp [hx]
    · cases hm
      exact hknown
    · cases hpid
  · exact h

/-- Mobs that are spawned one after the other, each under an id that is nobody's. -/
def FreshSpawns (cfg : MapConfig) (w : MapWorld) (spawns : List MobSpawn) : Prop :=
  Meets (fun w spawn => some (w.spawnOneMob cfg spawn)) (FreshSpawn cfg) w spawns

instance (cfg : MapConfig) (w : MapWorld) (spawns : List MobSpawn) : Decidable (FreshSpawns cfg w spawns) :=
  decidableMeets _ _ w spawns

theorem Settled.spawnMobs (h : Settled cfg w) {spawns : List MobSpawn} (hfresh : FreshSpawns cfg w spawns) :
    Settled cfg (spawns.foldl (MapWorld.spawnOneMob cfg) w) := by
  have hstep : ∀ v spawn v', Settled cfg v → FreshSpawn cfg v spawn → some (v.spawnOneMob cfg spawn) = some v' →
      Settled cfg v' := by
    intro v spawn v' hv hspawn hs
    cases hs
    exact hv.spawnOneMob hspawn
  exact run_inv_of_meets hstep h hfresh (run_some_eq_foldl _ _ _)

theorem Settled.applyMotion (h : Settled cfg w) (motion : Motion) : Settled cfg (w.applyMotion motion) := by
  cases motion with
  | moved e pos rot =>
    simp only [MapWorld.applyMotion]
    split
    · rename_i p hp
      exact h.replacePlayer hp { p with pos, rot } rfl rfl _ _
    · rename_i m hm
      refine h.moved ⟨identity_insert hm rfl, rfl, rfl, rfl⟩ (funext fun x => ?_)
      simp only [told, OrdMap.get?_insert]
      split
      · rename_i hx
        rw [hx, hm]
        rfl
      · rfl
    · exact h
  | setMovementAnimation e animation =>
    simp only [MapWorld.applyMotion]
    split
    · rename_i p hp
      exact h.replacePlayer hp { p with animation } rfl rfl w.spatial w.isDirty
    · exact h
    · exact h

/-! ## Cleanup and projection -/

/-- The despawns that a player has yet to be told. -/
def owed (w : MapWorld) (o : EntityId) : List EntityId :=
  (w.despawned.filter fun d => o ∈ d.recipients).map ActorDespawned.actorId

/-- Between cleanup and projection: what a player is owed is still shown to it. -/
structure Owing (cfg : MapConfig) (w : MapWorld) : Prop extends Wf cfg w where
  gone : ∀ d ∈ w.despawned, w.identity d.actorId = none ∧ d.recipients.Nodup
  distinct : (w.despawned.map ActorDespawned.actorId).Nodup
  shown : ∀ o pid, w.identity o = some (.inl pid) →
    replay o (w.told o) = some (insert o (w.graph.visible o ∪ (w.owed o).toFinset))

theorem Settled.owing (h : Settled cfg w) : Owing cfg w where
  toWf := h.toWf
  gone := by simp [h.despawned]
  distinct := by simp [h.despawned]
  shown := by simpa [owed, h.despawned] using h.shown

section
variable (it : Iteration)

theorem Owing.destroyMobEntity (h : Owing cfg w) (e : EntityId) : Owing cfg (w.destroyMobEntity it e) := by
  unfold MapWorld.destroyMobEntity
  split
  · rename_i m hm
    dsimp only
    set recipients := (w.graph.removeTarget it e).1.filter fun observer =>
      (w.actors.get? observer).isSome with hrecipients
    have hmob : w.identity e = some (.inr m.mobId) := by rw [identity, hm]; rfl
    have hmem : ∀ {x}, x ∈ recipients ↔ e ∈ w.graph.visible x := by
      intro x
      rw [hrecipients, List.mem_filter, ReplicationGraph.mem_removeTarget]
      refine ⟨fun hx => hx.1, fun hx => ⟨hx, ?_⟩⟩
      obtain ⟨pid, hp⟩ := h.observer x e hx
      rw [← isSome_identity, hp]
      rfl
    have hnosight : w.graph.visible e = ∅ := by
      refine Finset.eq_empty_of_forall_notMem fun t ht => ?_
      obtain ⟨pid, hp⟩ := h.observer e t ht
      rw [hmob] at hp
      cases hp
    generalize hw' : MapWorld.mk _ _ _ _ _ _ _ _ _ = w'
    have hgraph : w'.graph = (w.graph.removeTarget it e).2 := by rw [← hw']
    have hdespawned : w'.despawned = w.despawned ++ [⟨e, recipients⟩] := by rw [← hw']
    have hactors : ∀ x, w'.actors.get? x = if x = e then none else w.actors.get? x := by
      intro x
      rw [← hw', OrdMap.get?_erase]
      congr
    have hid : w'.identity = fun x => if x = e then none else w.identity x := by
      funext x
      rw [identity, hactors]
      split <;> rfl
    have hvisible : ∀ x, w'.graph.visible x = (w.graph.visible x).erase e := by
      intro x
      rw [hgraph, ReplicationGraph.visible_removeTarget]
    refine ⟨h.toWf.erased hid (fun x => ?_) fun x pid => ?_, fun d hd => ?_, ?_,
      fun x pid hx => ?_⟩
    · rw [hvisible]
      split
      · rename_i hx
        rw [hx, hnosight]
        rfl
      · rfl
    · rw [show w'.playerIndex = w.playerIndex by rw [← hw'], ← h.indexed]
      refine ⟨fun hx => ⟨?_, hx⟩, fun hx => hx.2⟩
      rintro rfl
      rw [hmob] at hx
      cases hx
    · rw [hid]
      rw [hdespawned] at hd
      rcases List.mem_append.1 hd with hd | hd
      · obtain ⟨hnone, hn⟩ := h.gone d hd
        refine ⟨?_, hn⟩
        dsimp only
        rw [hnone, ite_self]
      · obtain rfl := List.mem_singleton.1 hd
        exact ⟨if_pos rfl, (it.nodup _ _).filter _⟩
    · rw [hdespawned, List.map_append]
      refine List.nodup_append.2 ⟨h.distinct, List.nodup_singleton _, ?_⟩
      rintro x hx y hy rfl
      obtain ⟨d, hd, rfl⟩ := List.mem_map.1 hx
      obtain rfl := List.mem_singleton.1 hy
      rw [(h.gone d hd).1] at hmob
      cases hmob
    · obtain ⟨hxe, hplayer⟩ := identity_erased hid hx
      have howed : w'.owed x = w.owed x ++ if e ∈ w.graph.visible x then [e] else [] := by
        rw [owed, hdespawned, List.filter_append, List.map_append, ← owed]
        congr 1
        by_cases hsees : e ∈ w.graph.visible x
        · simp [hsees, hmem.2 hsees]
        · simp [hsees, mt hmem.1 hsees]
      have htold : w'.told x = w.told x := by rw [told, hactors, if_neg hxe]; rfl
      rw [htold, h.shown x pid hplayer, hvisible, howed]
      congr 2
      ext t
      by_cases hsees : e ∈ w.graph.visible x
      · simp only [hsees, if_true, Finset.mem_union, Finset.mem_erase, List.toFinset_append, List.mem_toFinset,
          List.mem_singleton]
        by_cases ht : t = e
        · subst ht
          simp [hsees]
        · tauto
      · rw [if_neg hsees, List.append_nil, Finset.erase_eq_of_notMem hsees]
  · exact h
  · exact h

end

theorem callsTo_despawned (o : EntityId) : ∀ {despawned : List ActorDespawned}, (∀ d ∈ despawned, d.recipients.Nodup) →
    callsTo o (despawned.flatMap fun d => d.recipients.map fun r => (r, .entityDespawn d.actorId)) =
      ((despawned.filter fun d => o ∈ d.recipients).map ActorDespawned.actorId).map PlayerEvent.entityDespawn
  | [], _ => rfl
  | d :: ds, hn => by
    rw [List.flatMap_cons, callsTo_append, callsTo_broadcast o (hn d List.mem_cons_self),
      callsTo_despawned o fun d' hd' => hn d' (List.mem_cons_of_mem _ hd')]
    by_cases ho : o ∈ d.recipients
    · simp [ho]
    · simp [ho]

/-- The projection pays what is owed. -/
theorem Owing.projectFrameFacts (h : Owing cfg w) (notices : List (EntityId × OtherEvent)) :
    Settled cfg (w.projectFrameFacts notices) := by
  set calls := notices.map (fun notice => (notice.1, PlayerEvent.other notice.2)) ++
    w.despawned.flatMap fun d => d.recipients.map fun r => (r, .entityDespawn d.actorId) with hcalls
  have hsame := deliver_same calls w
  have hwf := h.toWf.same hsame
  refine ⟨⟨hwf.known, hwf.indexed, hwf.observer, hwf.target⟩, rfl, fun o pid ho => ?_⟩
  have hplayer : w.identity o = some (.inl pid) := by rw [← hsame.identity]; exact ho
  have hunseen : ∀ e ∈ w.owed o, w.identity e = none := by
    intro e he
    obtain ⟨d, hd, rfl⟩ := List.mem_map.1 he
    exact (h.gone d (List.mem_filter.1 hd).1).1
  change replay o ((w.deliver calls).told o) = some (insert o ((w.deliver calls).graph.visible o))
  rw [told_deliver calls hplayer, hsame.graph, hcalls, callsTo_append, callsTo_notices,
    callsTo_despawned o fun d hd => (h.gone d hd).2, ← owed, ← List.append_assoc, replay, run_append,
    run_append, ← replay,
    h.shown o pid hplayer, Option.bind_some, run_other, Option.bind_some, run_despawns]
  · congr 1
    ext t
    have hvisible : t ∈ w.graph.visible o → t ∉ w.owed o := fun ht howed => by
      have := (h.target o t ht).1
      rw [hunseen t howed] at this
      cases this
    have hself : t = o → t ∉ w.owed o := fun ht howed => by
      rw [← ht, hunseen t howed] at hplayer
      cases hplayer
    simp only [Finset.mem_sdiff, Finset.mem_insert, Finset.mem_union, List.mem_toFinset]
    tauto
  · exact h.distinct.sublist (List.filter_sublist.map _)
  · intro e he
    refine ⟨Finset.mem_insert_of_mem (Finset.mem_union_right _ (List.mem_toFinset.2 he)), ?_⟩
    rintro rfl
    rw [hunseen e he] at hplayer
    cases hplayer

/-! ## Frames -/

/-- No mob is spawned under the id of an entity on the map. -/
def FreshUpdate (cfg : MapConfig) (w : MapWorld) (u : FixedUpdate) : Prop := FreshSpawns cfg w u.spawns

instance (cfg : MapConfig) (w : MapWorld) (u : FixedUpdate) : Decidable (FreshUpdate cfg w u) :=
  inferInstanceAs (Decidable (FreshSpawns cfg w u.spawns))

/-- No entity comes under the net id that another entity on the map has: none of those who enter, and none of the mobs
that are spawned in the updates of the frame. -/
def FreshFrame (cfg : MapConfig) (w : MapWorld) (f : Frame) : Prop :=
  Meets (inboundStep cfg) FreshInbound w f.inbound ∧
    ∀ w₁ ∈ run (inboundStep cfg) w f.inbound, Meets (fun w u => some (w.fixedUpdate cfg u))
      (FreshUpdate cfg) w₁ f.updates

instance (cfg : MapConfig) (w : MapWorld) (f : Frame) : Decidable (FreshFrame cfg w f) :=
  inferInstanceAs (Decidable (_ ∧ _))

theorem Settled.fixedUpdate (h : Settled cfg w) {u : FixedUpdate} (hfresh : FreshUpdate cfg w u) :
    Settled cfg (w.fixedUpdate cfg u) := by
  have h₁ := h.spawnMobs hfresh
  have h₂ := List.foldlRecOn (motive := Settled cfg) u.motions _ h₁ fun _ hw motion _ => hw.applyMotion motion
  have h₃ := List.foldlRecOn (motive := Settled cfg) u.restarts _ h₂ fun _ hw r _ => hw.restartPlayer u.order r.1 r.2
  have h₄ := List.foldlRecOn (motive := Owing cfg) u.cleanupDue _ h₃.owing fun _ hw e _ => hw.destroyMobEntity u.order e
  exact (h₄.projectFrameFacts u.notices).aoiReconcile u.order

theorem Settled.frameStep (h : Settled cfg w) {f : Frame} (hfresh : FreshFrame cfg w f)
    (hs : w.frameStep cfg f = some w') :
    Settled cfg w' := by
  obtain ⟨w₁, hw₁, rfl⟩ := Option.map_eq_some_iff.1 hs
  have h₁ : Settled cfg w₁ := run_inv_of_meets (fun _ _ _ hw hev ht => hw.inboundStep hev ht) h hfresh.1 hw₁
  have hstep : ∀ v u v', Settled cfg v → FreshUpdate cfg v u → some (v.fixedUpdate cfg u) = some v' →
      Settled cfg v' := by
    intro v u v' hv hu hs
    cases hs
    exact hv.fixedUpdate hu
  exact run_inv_of_meets hstep h₁ (hfresh.2 w₁ hw₁) (run_some_eq_foldl _ _ _)

theorem settled_empty : Settled cfg empty := by
  refine ⟨⟨?_, ?_, ?_, ?_⟩, rfl, ?_⟩ <;> simp [empty, identity]

/-- In every run in which no entity comes under the net id of another: at the end of every frame, whatever was pushed to
a player since it entered shows it itself and its visible set. The replay fails on an entity that is spawned while it is
shown, and on a despawn of one that is not. -/
theorem stream_tracks_visibility {mobs : List MobSpawn} {frames : List Frame} (hstart : FreshSpawns cfg empty mobs)
    (hfresh : Meets (frameStep cfg) (FreshFrame cfg) (start cfg mobs) frames)
    (hr : run (frameStep cfg) (start cfg mobs) frames = some w) {o : EntityId} {p : PlayerActor}
    (ho : w.actors.get? o = some (.player p)) : replay o p.pushed = some (insert o (w.graph.visible o)) := by
  have h : Settled cfg w :=
    run_inv_of_meets (fun _ _ _ hw hf ht => hw.frameStep hf ht) (settled_empty.spawnMobs hstart) hfresh hr
  have hshown := h.shown o p.playerId (identity_of_player ho)
  rwa [told, ho] at hshown

/-- Wolves, and a grid on which everything is near. -/
def meadow : MapConfig := ⟨⟨[⟨101⟩]⟩, fun _ _ _ => true⟩

/-- A wolf that stands there from the beginning. -/
def wolves : List MobSpawn := [⟨⟨101⟩, ⟨0, 0⟩, 0⟩]

/-- Two players enter beside the wolf, then its corpse is cleaned up while one of them restarts. -/
def wolfHunt : List Frame :=
  [⟨[.reserveNetId, .reserveNetId, .playerEnter ⟨⟨1⟩, ⟨2⟩, ⟨0, 0⟩⟩ .byId, .playerEnter ⟨⟨2⟩, ⟨3⟩, ⟨0, 0⟩⟩ .byId],
      [⟨[], [], [], [], [], .byId⟩]⟩,
    ⟨[], [⟨[], [], [(⟨2⟩, .here)], [⟨1⟩], [], .byId⟩]⟩]

theorem stream_tracks_visibility_wolfHunt : ∃ w p, run (frameStep meadow) (start meadow wolves) wolfHunt = some w ∧
    w.actors.get? ⟨2⟩ = some (.player p) ∧ p.pushed.length = 9 ∧ replay ⟨2⟩ p.pushed = some {⟨2⟩, ⟨3⟩} := by
  have hrun : ((run (frameStep meadow) (start meadow wolves) wolfHunt).bind fun w =>
      (w.actors.get? ⟨2⟩).map fun a => (a.told.length, w.graph.visible ⟨2⟩)) = some (9, {⟨3⟩}) := by decide +kernel
  obtain ⟨w, hw, ha⟩ := Option.bind_eq_some_iff.1 hrun
  obtain ⟨a, ha, hout⟩ := Option.map_eq_some_iff.1 ha
  obtain ⟨hlength, hvisible⟩ := Prod.mk.inj hout
  cases a with
  | player p =>
    refine ⟨w, p, hw, ha, hlength, ?_⟩
    rw [stream_tracks_visibility (by decide +kernel) (by decide +kernel) hw ha, hvisible]
  | mob m => cases hlength

/-- The counter goes through the ids from one up and begins again. -/
theorem toNat_nextEntityId_iterate (n : UInt32) (k : Nat) (hn : n ≠ 0) :
    (nextEntityId^[k] n).toNat = (n.toNat - 1 + k) % 4294967295 + 1 := by
  have hpos : 0 < n.toNat := by
    apply Nat.pos_of_ne_zero
    intro h
    exact hn (UInt32.toNat_inj.1 h)
  have hlt := n.toNat_lt
  induction k with
  | zero =>
    show n.toNat = _
    omega
  | succ k ih =>
    rw [Function.iterate_succ_apply']
    generalize nextEntityId^[k] n = m at ih
    have hm : (nextEntityId m).toNat = if m.toNat = 4294967295 then 1 else m.toNat + 1 := by
      unfold nextEntityId
      have hadd : (m + 1).toNat = (m.toNat + 1) % 4294967296 := UInt32.toNat_add m 1
      have hmlt := m.toNat_lt
      split
      · rename_i hzero
        rw [hzero] at hadd
        have hz : (0 : UInt32).toNat = 0 := rfl
        rw [if_pos (by omega)]
        rfl
      · rename_i hzero
        have hne : (m + 1).toNat ≠ 0 := by
          intro h
          exact hzero (UInt32.toNat_inj.1 h)
        rw [if_neg (by omega)]
        omega
    rw [hm]
    split <;> omega

theorem run_reserveNetId (cfg : MapConfig) (w : MapWorld) : ∀ k, ∃ reserved,
    run (inboundStep cfg) w (List.replicate (k + 1) .reserveNetId) =
      some { w with
        nextNetId := nextEntityId^[k + 1] w.nextNetId,
        reserved := ⟨(nextEntityId^[k + 1] w.nextNetId).toNat⟩ :: reserved }
  | 0 => ⟨w.reserved, rfl⟩
  | k + 1 => by
    obtain ⟨reserved, hrun⟩ := run_reserveNetId cfg w k
    refine ⟨⟨(nextEntityId^[k + 1] w.nextNetId).toNat⟩ :: reserved, ?_⟩
    rw [List.replicate_succ', run_append, hrun, Option.bind_some, Function.iterate_succ_apply' _ (k + 1)]
    rfl

theorem queueVisibilityDiff_nil (w : MapWorld) (o : VisibilityObserver) :
    w.queueVisibilityDiff cfg o ⟨[], []⟩ = w := by
  unfold queueVisibilityDiff
  split
  · rfl
  · dsimp only
    split <;> rfl

/-- A hunter comes to the wolf, with the second id. -/
def hunter : EnterMsg := ⟨⟨1⟩, ⟨2⟩, ⟨0, 0⟩⟩

def newcomer : EnterMsg := ⟨⟨2⟩, ⟨2⟩, ⟨0, 0⟩⟩

def hunterFrame : Frame := ⟨[.reserveNetId, .playerEnter hunter .byId], []⟩

def newcomerFrame : Frame := ⟨List.replicate 4294967295 .reserveNetId ++ [.playerEnter newcomer .byId], []⟩

def hunting : MapWorld :=
  { start meadow wolves with nextNetId := nextEntityId 1, reserved := [] }.handlePlayerEnter meadow .byId hunter

theorem frameStep_hunter : frameStep meadow (start meadow wolves) hunterFrame = some hunting := rfl

/-- The newcomer's entry. -/
def newcomerActor : Actor := .player ⟨⟨2⟩, ⟨0, 0⟩, 0, .run, [.entitySpawn ⟨⟨2⟩, 0, ⟨0, 0⟩⟩]⟩

def crowd (n : UInt32) (r : List EntityId) : MapWorld :=
  { hunting with
    nextNetId := n
    reserved := r
    actors := hunting.actors.insert ⟨2⟩ newcomerActor
    playerIndex := hunting.playerIndex.insert ⟨2⟩ ⟨2⟩
    playerCount := hunting.playerCount + 1
    spatial := hunting.spatial.insert ⟨2⟩ ⟨0, 0⟩ }

theorem handlePlayerEnter_newcomer (n : UInt32) (r : List EntityId) :
    ({ hunting with nextNetId := n, reserved := r }.handlePlayerEnter meadow .byId newcomer) =
      { (crowd n r).reconcileOneObserver meadow .byId ⟨⟨2⟩, ⟨2⟩, ⟨0, 0⟩⟩ with isDirty := true } := by
  have hnew : hunting.playerIndex.get? ⟨2⟩ = none := by decide +kernel
  unfold handlePlayerEnter despawnExisting
  simp only [newcomer, hnew]
  rfl

/-- The reconcile of the newcomer. -/
def newcomerDiff : VisibilityDiff × ReplicationGraph :=
  hunting.graph.reconcileObserver .byId ⟨2⟩
    ((crowd 0 []).visibilityCandidates meadow ⟨0, 0⟩ InterestConfig.default.spawnRadius ⟨2⟩)
    ((crowd 0 []).visibilityCandidates meadow ⟨0, 0⟩ InterestConfig.default.despawnRadius ⟨2⟩)

/-- The newcomer sees what the hunter sees, and is told of none of it. -/
theorem reconcile_newcomer (n : UInt32) (r : List EntityId) :
    (crowd n r).reconcileOneObserver meadow .byId ⟨⟨2⟩, ⟨2⟩, ⟨0, 0⟩⟩ = { crowd n r with graph := newcomerDiff.2 } := by
  have hentered : newcomerDiff.1.entered = [] := by decide +kernel
  have hleft : newcomerDiff.1.left = [] := by decide +kernel
  have hdiff : newcomerDiff.1 = ⟨[], []⟩ := congrArg₂ VisibilityDiff.mk hentered hleft
  show MapWorld.queueVisibilityDiff meadow { crowd n r with graph := newcomerDiff.2 } ⟨⟨2⟩, ⟨2⟩, ⟨0, 0⟩⟩
    newcomerDiff.1 = _
  rw [hdiff, queueVisibilityDiff_nil]

theorem inboundStep_newcomer (n : UInt32) (r : List EntityId) :
    inboundStep meadow { hunting with nextNetId := n, reserved := ⟨2⟩ :: r } (.playerEnter newcomer .byId) =
      some { crowd n r with graph := newcomerDiff.2, isDirty := true } := by
  have herase : (⟨2⟩ :: r : List EntityId).erase newcomer.playerNetId = r := List.erase_cons_head ..
  have hmem : newcomer.playerNetId ∈ (⟨2⟩ :: r : List EntityId) := List.mem_cons_self
  simp only [inboundStep, if_pos hmem, herase, handlePlayerEnter_newcomer, reconcile_newcomer]

/-- The hunter sees the wolf. After `2^32 - 1` further ids its own comes round again, and a newcomer enters with it: the
graph says that the newcomer sees the wolf, of which it was told nothing. -/
theorem stream_misses_visible :
    ∃ w p, run (frameStep meadow) (start meadow wolves) [hunterFrame, newcomerFrame] = some w ∧
    w.actors.get? ⟨2⟩ = some (.player p) ∧ p.playerId = ⟨2⟩ ∧ replay ⟨2⟩ p.pushed = some {⟨2⟩} ∧
    ⟨1⟩ ∈ w.graph.visible ⟨2⟩ ∧
    replay ⟨2⟩ p.pushed ≠ some (insert ⟨2⟩ (w.graph.visible ⟨2⟩)) := by
  obtain ⟨reserved, hreserve⟩ := run_reserveNetId meadow hunting 4294967294
  have hround : (nextEntityId^[4294967295] hunting.nextNetId).toNat = 2 :=
    toNat_nextEntityId_iterate hunting.nextNetId 4294967295 (by decide +kernel)
  rw [hround] at hreserve
  have hframe : frameStep meadow hunting newcomerFrame =
      some { crowd (nextEntityId^[4294967295] hunting.nextNetId) reserved with
        graph := newcomerDiff.2, isDirty := true } := by
    unfold frameStep newcomerFrame
    rw [run_append, hreserve, Option.bind_some, run_cons, inboundStep_newcomer]
    rfl
  have hrun := (run_cons_eq_some _).2 ⟨_, frameStep_hunter, (run_cons_eq_some _).2 ⟨_, hframe, run_nil _ _⟩⟩
  have hsees : ⟨1⟩ ∈ newcomerDiff.2.visible ⟨2⟩ := by decide +kernel
  have hshown : replay ⟨2⟩ newcomerActor.told = some {⟨2⟩} := by decide +kernel
  refine ⟨_, _, hrun, (OrdMap.get?_insert ..).trans (if_pos rfl), rfl, hshown, hsees, ?_⟩
  intro heq
  have hall := Option.some.inj (hshown.symm.trans heq)
  have hmem : (⟨1⟩ : EntityId) ∈ ({⟨2⟩} : Finset EntityId) := hall ▸ Finset.mem_insert_of_mem hsees
  exact absurd hmem (by decide)

end MapWorld

end Zohar.Replication
