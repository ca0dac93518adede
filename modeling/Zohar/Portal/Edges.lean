/-
What the polls of a map tell its players over a whole run: a portal event is pushed when the nearest portal that a
player is seen to overlap is another one than at the poll before, and at no other time, exactly as long as each player
that is seen to overlap a portal stands within the reach of the query. The bound that the radius of the query rests on
is an invariant of the moves where keeping a player on the map takes no step beyond the limit; what lies at the radius
itself the query leaves out.
-/
import Zohar.Portal.Entries

namespace Zohar.Portal

open Zohar.Lib
open Zohar.Game (Text wordsFrom)
open Zohar.Replication (EntityId)
open Zohar.Space (samplePlayerVisualPositionAt samplePlayerMotionStateAt)

/-! ## Rising edges -/

/-- The interval since the last poll has passed. -/
def MapWorld.Due (w : MapWorld) (p : Poll) : Prop := w.pollState.nextPollAt ≤ p.simNow

/-- The nearest portal that the player is seen to overlap. -/
def NearestOf (cfg : PortalConfig) (w : MapWorld) (p : Poll) (player : Entity) (q : PortalEntry) : Prop :=
  ∃ b, w.players.get? player = some b ∧
    IsNearest (collectPortals cfg p.mobs) (samplePlayerVisualPositionAt b.motion p.packetNow) q

/-- What a poll does that comes when it is due, with the portal that was recorded for each player at the poll before. -/
structure Edge (cfg : PortalConfig) (recorded : Entity → Entity → Prop) (w : MapWorld) (p : Poll)
    (t : MapWorld) : Prop where
  found : ∀ player b, w.players.get? player = some b → ∀ q ∈ collectPortals cfg p.mobs,
    q.Overlaps (samplePlayerVisualPositionAt b.motion p.packetNow) →
      b.netId ∈ p.query.ids w.spatial q.pos (maxMovePacketStepM + portalOverlapRadiusM)
  rises : ∀ player q, NearestOf cfg w p player q → ¬ recorded player q.entity →
    ∃ outbox, w.outboxes.get? player = some outbox ∧ t.outboxes.get? player = some (outbox ++ [q.destination])
  stays : ∀ player, (∀ q, NearestOf cfg w p player q → recorded player q.entity) →
    t.outboxes.get? player = w.outboxes.get? player

/-- No player that stays is told anything. -/
def Quiet (w t : MapWorld) : Prop :=
  ∀ player, (w.players.get? player).isSome → (t.players.get? player).isSome →
    t.outboxes.get? player = w.outboxes.get? player

def EdgeAt (cfg : PortalConfig) (recorded : Entity → Entity → Prop) (w : MapWorld) (ev : PortalEvent) (t : MapWorld) :
    Prop :=
  match ev with
  | .poll p => (w.Due p → Edge cfg recorded w p t) ∧ (¬ w.Due p → Quiet w t)
  | _ => Quiet w t

/-- What is recorded after the event: at a poll, the nearest portal of each player. -/
def recordedAfter (cfg : PortalConfig) (recorded : Entity → Entity → Prop) (w : MapWorld) (ev : PortalEvent) :
    Entity → Entity → Prop :=
  match ev with
  | .poll p => fun player portal =>
    (w.Due p ∧ ∃ q, NearestOf cfg w p player q ∧ q.entity = portal) ∨ (¬ w.Due p ∧ recorded player portal)
  | _ => recorded

/-- Portal events are pushed on rising edges only, and on each of them, all along the run. -/
def RisingEdges (cfg : PortalConfig) : (Entity → Entity → Prop) → MapWorld → List PortalEvent → Prop
  | _, _, [] => True
  | recorded, w, ev :: es => ∀ t, w.step cfg ev = some t →
    EdgeAt cfg recorded w ev t ∧ RisingEdges cfg (recordedAfter cfg recorded w ev) t es

/-- At a poll that is due: whoever is seen to overlap a portal is within the reach of the query. -/
def PollInReach (cfg : PortalConfig) (w : MapWorld) (ev : PortalEvent) : Prop :=
  ∀ p, ev = .poll p → w.Due p → InReach w (collectPortals cfg p.mobs) p.packetNow

/-- At a poll that is due: nobody who is seen to overlap a portal stands as far from it as the query reaches. -/
def PollOffRim (cfg : PortalConfig) (w : MapWorld) (ev : PortalEvent) : Prop :=
  ∀ p, ev = .poll p → w.Due p → OffRim w (collectPortals cfg p.mobs) p.packetNow

/-- A move of a player keeps its step. -/
def MoveKept (cfg : PortalConfig) (w : MapWorld) (ev : PortalEvent) : Prop :=
  ∀ player request b, ev = .move player request → w.players.get? player = some b → StepKept cfg.localSize b request

/-! ## What is pushed -/

section Push

variable {k : Entity} {entries : List (Entity × PortalOverlap)} {outboxes : OrdMap Entity (List PortalDestination)}

/-- The outbox of a player, if it has one, after it is told. -/
def told (outbox : Option (List PortalDestination)) (o : PortalOverlap) : Option (List PortalDestination) :=
  outbox.map (· ++ [o.destination])

theorem get?_pushEntered_self (outboxes : OrdMap Entity (List PortalDestination)) (e : Entity × PortalOverlap) :
    (pushEntered outboxes e).get? e.1 = told (outboxes.get? e.1) e.2 := by
  unfold pushEntered
  cases h : outboxes.get? e.1 with
  | none => exact h
  | some outbox =>
    rw [OrdMap.get?_insert, if_pos rfl]
    rfl

theorem get?_pushEntered_of_ne (outboxes : OrdMap Entity (List PortalDestination)) (e : Entity × PortalOverlap)
    (k : Entity) (h : k ≠ e.1) : (pushEntered outboxes e).get? k = outboxes.get? k := by
  unfold pushEntered
  cases outboxes.get? e.1 with
  | none => rfl
  | some outbox =>
    show (outboxes.insert e.1 (outbox ++ [e.2.destination])).get? k = _
    rw [OrdMap.get?_insert, if_neg h]

/-- A player whose overlap is among those to be pushed is told of it, once. -/
theorem get?_pushEntered_of_mem (hnodup : (entries.map (·.1)).Nodup) {o : PortalOverlap} (h : (k, o) ∈ entries) :
    (entries.foldl pushEntered outboxes).get? k = told (outboxes.get? k) o := by
  rw [get?_foldl_entries get?_pushEntered_self get?_pushEntered_of_ne k entries hnodup,
    (lookupEntry_eq_some_iff_of_nodup hnodup).2 h]
  rfl

theorem get?_pushEntered_of_notMem (hnodup : (entries.map (·.1)).Nodup) (h : k ∉ entries.map (·.1)) :
    (entries.foldl pushEntered outboxes).get? k = outboxes.get? k := by
  rw [get?_foldl_entries get?_pushEntered_self get?_pushEntered_of_ne k entries hnodup, lookupEntry_eq_none h]
  rfl

end Push

/-! ## One poll -/

section Poll

variable {cfg : PortalConfig} {w : MapWorld} {p : Poll}

/-- The overlaps that a poll collects. -/
noncomputable def MapWorld.current (cfg : PortalConfig) (w : MapWorld) (p : Poll) : OrdMap Entity PortalOverlap :=
  collectCurrentPlayerPortalOverlaps w p.query (collectPortals cfg p.mobs) p.packetNow

/-- The overlaps of which a poll tells, in the order in which it does. -/
noncomputable def MapWorld.news (cfg : PortalConfig) (w : MapWorld) (p : Poll) : List (Entity × PortalOverlap) :=
  (p.order (w.current cfg p).entries).filter fun e => w.pollState.overlaps.get? e.1 ≠ some e.2.portalEntity

theorem news_nodup (cfg : PortalConfig) (w : MapWorld) (p : Poll) : ((w.news cfg p).map (·.1)).Nodup := by
  have hkeys : ((w.current cfg p).entries.map (·.1)).Nodup := (w.current cfg p).keys_pairwise.imp fun h => h.ne
  have horder := ((p.order_perm (w.current cfg p).entries).map (·.1)).nodup_iff.2 hkeys
  exact horder.sublist (List.Sublist.map _ List.filter_sublist)

theorem mem_news {player : Entity} {o : PortalOverlap} : (player, o) ∈ w.news cfg p ↔
    (w.current cfg p).get? player = some o ∧ w.pollState.overlaps.get? player ≠ some o.portalEntity := by
  unfold MapWorld.news
  rw [List.mem_filter, (p.order_perm _).mem_iff, decide_eq_true_eq, ← OrdMap.get?_eq_some_iff]

theorem processPortalEntries_of_due (h : w.Due p) : processPortalEntries cfg p w =
    { w with
      outboxes := (w.news cfg p).foldl pushEntered w.outboxes
      pollState := ⟨satAdd p.simNow portalPollInterval, (w.current cfg p).map PortalOverlap.portalEntity⟩ } :=
  if_neg (not_lt.2 h)

theorem processPortalEntries_of_early (h : ¬ w.Due p) : processPortalEntries cfg p w = w := if_pos (not_le.1 h)

theorem MapWorld.Settled.current_iff (hw : w.Settled) (hreach : InReach w (collectPortals cfg p.mobs) p.packetNow)
    {player : Entity} {o : PortalOverlap} :
    (w.current cfg p).get? player = some o ↔ ∃ q, NearestOf cfg w p player q ∧ o = ⟨q.entity, q.destination⟩ := by
  unfold MapWorld.current
  rw [hw.get?_collect_iff hreach (p.slots cfg)]
  constructor
  · rintro ⟨b, hb, q, hq, rfl⟩
    exact ⟨q, ⟨b, hb, hq⟩, rfl⟩
  · rintro ⟨q, ⟨b, hb, hq⟩, rfl⟩
    exact ⟨b, hb, q, hq, rfl⟩

variable {recorded : Entity → Entity → Prop}

/-- A poll of a settled map that remembers what was recorded tells of every rising edge, and of nothing else, if nobody
who should be told is out of its reach. -/
theorem MapWorld.Settled.edge (hw : w.Settled) (hreach : InReach w (collectPortals cfg p.mobs) p.packetNow)
    (hrec : ∀ player portal, w.pollState.overlaps.get? player = some portal ↔ recorded player portal) (hdue : w.Due p) :
    Edge cfg recorded w p (processPortalEntries cfg p w) := by
  rw [processPortalEntries_of_due hdue]
  constructor
  · intro player b hb q hq hov
    exact (hw.found_iff hb).2 (hreach player b hb q hq hov)
  · intro player q hq hnew
    have ⟨b, hb, _⟩ := hq
    obtain ⟨outbox, hout⟩ := hw.hasOutbox player b hb
    have hmem : (player, (⟨q.entity, q.destination⟩ : PortalOverlap)) ∈ w.news cfg p :=
      mem_news.2 ⟨(hw.current_iff hreach).2 ⟨q, hq, rfl⟩, fun h => hnew ((hrec _ _).1 h)⟩
    refine ⟨outbox, hout, ?_⟩
    show ((w.news cfg p).foldl pushEntered w.outboxes).get? player = _
    rw [get?_pushEntered_of_mem (news_nodup cfg w p) hmem, hout]
    rfl
  · intro player hold
    apply get?_pushEntered_of_notMem (news_nodup cfg w p)
    intro hmem
    obtain ⟨⟨k, o⟩, hko, rfl⟩ := List.mem_map.1 hmem
    obtain ⟨hcur, hnew⟩ := mem_news.1 hko
    obtain ⟨q, hq, rfl⟩ := (hw.current_iff hreach).1 hcur
    exact hnew ((hrec _ _).2 (hold q hq))

/-- And only then: it finds whoever it should tell. -/
theorem MapWorld.Settled.inReach_of_edge (hw : w.Settled) {t : MapWorld} (h : Edge cfg recorded w p t) :
    InReach w (collectPortals cfg p.mobs) p.packetNow := fun player b hb q hq hov =>
  (hw.found_iff hb).1 (h.found player b hb q hq hov)

theorem MapWorld.Settled.overlaps_after (hw : w.Settled) (hreach : InReach w (collectPortals cfg p.mobs) p.packetNow)
    (hdue : w.Due p) (player portal : Entity) :
    (processPortalEntries cfg p w).pollState.overlaps.get? player = some portal ↔
      ∃ q, NearestOf cfg w p player q ∧ q.entity = portal := by
  rw [processPortalEntries_of_due hdue]
  show ((w.current cfg p).map PortalOverlap.portalEntity).get? player = _ ↔ _
  rw [OrdMap.get?_map, Option.map_eq_some_iff]
  constructor
  · rintro ⟨o, ho, rfl⟩
    obtain ⟨q, hq, rfl⟩ := (hw.current_iff hreach).1 ho
    exact ⟨q, hq, rfl⟩
  · rintro ⟨q, hq, rfl⟩
    exact ⟨_, (hw.current_iff hreach).2 ⟨q, hq, rfl⟩, rfl⟩

end Poll

/-! ## Every step keeps the map settled -/

section Steps

variable {cfg : PortalConfig} {w t : MapWorld} {player : Entity} {b b' : PlayerBody}

theorem settled_start : MapWorld.start.Settled where
  indexed _ _ h := nomatch h
  placed _ _ h := nomatch h
  hasOutbox _ _ h := nomatch h

/-- No two players go by one net id. -/
theorem MapWorld.Settled.netId_inj (hw : w.Settled) {e e' : Entity} (hb : w.players.get? e = some b)
    (hb' : w.players.get? e' = some b') (h : b.netId = b'.netId) : e = e' := by
  have hi := hw.indexed e b hb
  rw [h, hw.indexed e' b' hb'] at hi
  exact (Option.some.inj hi).symm

theorem updatePosition_eq {spatial : OrdMap EntityId LocalPos} {netId : EntityId} {old : LocalPos}
    (h : spatial.get? netId = some old) (pos : LocalPos) :
    MapWorld.updatePosition spatial netId pos = spatial.insert netId pos := by
  unfold MapWorld.updatePosition
  rw [h]
  exact if_pos rfl

/-- A player that is moved, in the world and in the index alike, leaves the map settled. -/
theorem MapWorld.Settled.moved (hw : w.Settled) (hb : w.players.get? player = some b) {pos : LocalPos}
    {motion : PlayerMotionState} {spatial : OrdMap EntityId LocalPos}
    (hself : spatial.get? b.netId = some pos) (hother : ∀ id, id ≠ b.netId → spatial.get? id = w.spatial.get? id) :
    ({ w with players := w.players.insert player ⟨b.netId, pos, motion⟩, spatial } : MapWorld).Settled := by
  -- what holds of the moved player and of the others is told apart by the entity
  have hcases : ∀ {e c}, (w.players.insert player ⟨b.netId, pos, motion⟩).get? e = some c →
      (e = player ∧ c = ⟨b.netId, pos, motion⟩) ∨ (e ≠ player ∧ w.players.get? e = some c) := by
    intro e c hc
    rw [OrdMap.get?_insert] at hc
    split at hc
    · rename_i he
      exact .inl ⟨he, (Option.some.inj hc).symm⟩
    · rename_i he
      exact .inr ⟨he, hc⟩
  constructor
  · intro e c hc
    obtain ⟨rfl, rfl⟩ | ⟨-, hc⟩ := hcases hc
    · exact hw.indexed _ b hb
    · exact hw.indexed e c hc
  · intro e c hc
    obtain ⟨rfl, rfl⟩ | ⟨hne, hc⟩ := hcases hc
    · exact hself
    · rw [hother _ fun hid => hne (hw.netId_inj hc hb hid)]
      exact hw.placed e c hc
  · intro e c hc
    obtain ⟨rfl, rfl⟩ | ⟨-, hc⟩ := hcases hc
    · exact hw.hasOutbox _ b hb
    · exact hw.hasOutbox e c hc

/-- The same with the position updated in the index. -/
theorem MapWorld.Settled.updated (hw : w.Settled) (hb : w.players.get? player = some b) {pos : LocalPos}
    {motion : PlayerMotionState} :
    ({ w with
      players := w.players.insert player ⟨b.netId, pos, motion⟩
      spatial := MapWorld.updatePosition w.spatial b.netId pos } : MapWorld).Settled := by
  rw [updatePosition_eq (hw.placed player b hb)]
  refine hw.moved hb ?_ fun id hne => ?_
  · rw [OrdMap.get?_insert, if_pos rfl]
  · rw [OrdMap.get?_insert, if_neg hne]

theorem MapWorld.Settled.addPlayer (hw : w.Settled) (hfree : w.players.get? player = none) {netId : EntityId}
    (hid : w.netIndex.get? netId = none) (initialPos : LocalPos) : (w.addPlayer player netId initialPos).Settled := by
  have hcases : ∀ {e c}, (w.addPlayer player netId initialPos).players.get? e = some c →
      (e = player ∧ c = ⟨netId, initialPos, .standing initialPos 0⟩) ∨
        (e ≠ player ∧ c.netId ≠ netId ∧ w.players.get? e = some c) := by
    intro e c hc
    unfold MapWorld.addPlayer at hc
    rw [OrdMap.get?_insert] at hc
    split at hc
    · rename_i he
      exact .inl ⟨he, (Option.some.inj hc).symm⟩
    · rename_i he
      refine .inr ⟨he, fun h => ?_, hc⟩
      have hi := hw.indexed e c hc
      rw [h, hid] at hi
      cases hi
  constructor
  · intro e c hc
    show (w.netIndex.insert netId player).get? c.netId = some e
    obtain ⟨rfl, rfl⟩ | ⟨-, hne, hc⟩ := hcases hc
    · rw [OrdMap.get?_insert, if_pos rfl]
    · rw [OrdMap.get?_insert, if_neg hne]
      exact hw.indexed e c hc
  · intro e c hc
    show (w.spatial.insert netId initialPos).get? c.netId = some c.pos
    obtain ⟨rfl, rfl⟩ | ⟨-, hne, hc⟩ := hcases hc
    · rw [OrdMap.get?_insert, if_pos rfl]
    · rw [OrdMap.get?_insert, if_neg hne]
      exact hw.placed e c hc
  · intro e c hc
    show ∃ outbox, (w.outboxes.insert player []).get? e = some outbox
    rw [OrdMap.get?_insert]
    obtain ⟨rfl, rfl⟩ | ⟨hne, -, hc⟩ := hcases hc
    · exact ⟨[], if_pos rfl⟩
    · rw [if_neg hne]
      exact hw.hasOutbox e c hc

theorem MapWorld.Settled.removePlayer (hw : w.Settled) (hb : w.players.get? player = some b) :
    (w.removePlayer player b).Settled := by
  have hcases : ∀ {e c}, (w.removePlayer player b).players.get? e = some c →
      e ≠ player ∧ c.netId ≠ b.netId ∧ w.players.get? e = some c := by
    intro e c hc
    obtain ⟨hne, hc⟩ := OrdMap.get?_erase_eq_some_iff.1 hc
    exact ⟨hne, fun h => hne (hw.netId_inj hc hb h), hc⟩
  constructor
  · intro e c hc
    obtain ⟨-, hid, hc⟩ := hcases hc
    exact OrdMap.get?_erase_eq_some_iff.2 ⟨hid, hw.indexed e c hc⟩
  · intro e c hc
    obtain ⟨-, hid, hc⟩ := hcases hc
    exact OrdMap.get?_erase_eq_some_iff.2 ⟨hid, hw.placed e c hc⟩
  · intro e c hc
    obtain ⟨hne, -, hc⟩ := hcases hc
    obtain ⟨outbox, hout⟩ := hw.hasOutbox e c hc
    exact ⟨outbox, OrdMap.get?_erase_eq_some_iff.2 ⟨hne, hout⟩⟩

/-- What happens to a net id that is no player's is of no account. -/
theorem MapWorld.Settled.mobIndices (hw : w.Settled) {netId : EntityId} (hid : w.noPlayer netId = true)
    {netIndex : OrdMap EntityId Entity} {spatial : OrdMap EntityId LocalPos}
    (hnet : ∀ id, id ≠ netId → netIndex.get? id = w.netIndex.get? id)
    (hspatial : ∀ id, id ≠ netId → spatial.get? id = w.spatial.get? id) :
    ({ w with netIndex, spatial } : MapWorld).Settled := by
  have hne : ∀ {e c}, w.players.get? e = some c → c.netId ≠ netId := by
    intro e c hc h
    have hres : resolvePlayerEntity w netId = some e := resolvePlayerEntity_eq_some_iff.2 ⟨h ▸ hw.indexed e c hc, c, hc⟩
    unfold MapWorld.noPlayer at hid
    rw [hres] at hid
    cases hid
  constructor
  · intro e c hc
    exact (hnet _ (hne hc)).trans (hw.indexed e c hc)
  · intro e c hc
    exact (hspatial _ (hne hc)).trans (hw.placed e c hc)
  · exact hw.hasOutbox

theorem MapWorld.Settled.poll (hw : w.Settled) (p : Poll) : (processPortalEntries cfg p w).Settled := by
  by_cases hdue : w.Due p
  · rw [processPortalEntries_of_due hdue]
    refine ⟨hw.indexed, hw.placed, fun e c hc => ?_⟩
    obtain ⟨outbox, hout⟩ := hw.hasOutbox e c hc
    show ∃ outbox, ((w.news cfg p).foldl pushEntered w.outboxes).get? e = some outbox
    by_cases hmem : e ∈ (w.news cfg p).map (·.1)
    · obtain ⟨⟨k, o⟩, hko, rfl⟩ := List.mem_map.1 hmem
      rw [get?_pushEntered_of_mem (news_nodup cfg w p) hko, hout]
      exact ⟨_, rfl⟩
    · rw [get?_pushEntered_of_notMem (news_nodup cfg w p) hmem]
      exact ⟨outbox, hout⟩
  · rw [processPortalEntries_of_early hdue]
    exact hw

/-- Every step leaves the map settled. -/
theorem step_settled {ev : PortalEvent} (hw : w.Settled) (h : w.step cfg ev = some t) : t.Settled := by
  cases ev with
  | enter player netId initialPos =>
    obtain ⟨⟨hfree, hid⟩, h⟩ := Option.ite_none_right_eq_some.1 h
    cases h
    exact hw.addPlayer (Option.isNone_iff_eq_none.1 hfree) (Option.isNone_iff_eq_none.1 hid) initialPos
  | leave player =>
    obtain ⟨b, hb, rfl⟩ := Option.map_eq_some_iff.1 h
    exact hw.removePlayer hb
  | move player request =>
    obtain ⟨b, hb, h⟩ := Option.bind_eq_some_iff.1 h
    obtain ⟨⟨endPos, motion⟩, hplan, rfl⟩ := Option.map_eq_some_iff.1 h
    exact hw.updated hb
  | restart player moveTo packetNow =>
    obtain ⟨b, hb, rfl⟩ := Option.map_eq_some_iff.1 h
    cases moveTo with
    | none => exact hw.moved hb (hw.placed player b hb) fun _ _ => rfl
    | some pos => exact hw.updated hb
  | mobAt netId mob pos =>
    obtain ⟨⟨hid, -⟩, h⟩ := Option.ite_none_right_eq_some.1 h
    cases h
    refine hw.mobIndices hid (fun id hne => ?_) fun id hne => ?_
    · rw [OrdMap.get?_insert, if_neg hne]
    · rw [OrdMap.get?_insert, if_neg hne]
  | mobGone netId =>
    obtain ⟨hid, h⟩ := Option.ite_none_right_eq_some.1 h
    cases h
    refine hw.mobIndices hid (fun id hne => ?_) fun id hne => ?_
    · rw [OrdMap.get?_erase, if_neg hne]
    · rw [OrdMap.get?_erase, if_neg hne]
  | poll p =>
    cases h
    exact hw.poll p

/-- What holds of every player still does with one that it holds of. -/
theorem forall_insert {C : PlayerBody → Prop} (hw : ∀ e b, w.players.get? e = some b → C b) (hb : C b) {e : Entity}
    {c : PlayerBody} (hc : (w.players.insert player b).get? e = some c) : C c := by
  rw [OrdMap.get?_insert] at hc
  split at hc
  · cases hc
    exact hb
  · exact hw e c hc

/-- Every step whose move is kept leaves the segments short. -/
theorem step_inStep {ev : PortalEvent} (hw : w.InStep) (hkept : MoveKept cfg w ev) (h : w.step cfg ev = some t) :
    t.InStep := by
  cases ev with
  | enter player netId initialPos =>
    obtain ⟨-, h⟩ := Option.ite_none_right_eq_some.1 h
    cases h
    exact fun e c => forall_insert hw (inStep_standing netId initialPos 0)
  | leave player =>
    obtain ⟨b, -, rfl⟩ := Option.map_eq_some_iff.1 h
    exact fun e c hc => hw e c (OrdMap.get?_erase_eq_some_iff.1 hc).2
  | move player request =>
    obtain ⟨b, hb, h⟩ := Option.bind_eq_some_iff.1 h
    obtain ⟨⟨endPos, motion⟩, hplan, rfl⟩ := Option.map_eq_some_iff.1 h
    exact fun e c => forall_insert hw (inStep_move (hkept player request b rfl hb) hplan)
  | restart player moveTo packetNow =>
    obtain ⟨b, hb, rfl⟩ := Option.map_eq_some_iff.1 h
    exact fun e c => forall_insert hw (inStep_standing b.netId (moveTo.getD b.pos) packetNow)
  | mobAt netId mob pos =>
    obtain ⟨-, h⟩ := Option.ite_none_right_eq_some.1 h
    cases h
    exact hw
  | mobGone netId =>
    obtain ⟨-, h⟩ := Option.ite_none_right_eq_some.1 h
    cases h
    exact hw
  | poll p =>
    cases h
    unfold processPortalEntries
    split
    · exact hw
    · exact hw

end Steps

/-! ## Runs -/

section Runs

variable {cfg : PortalConfig} {w t : MapWorld} {recorded : Entity → Entity → Prop}

/-- What the map remembers after an event is what is recorded after it. -/
theorem step_recorded {ev : PortalEvent} (hw : w.Settled) (hreach : PollInReach cfg w ev)
    (hrec : ∀ player portal, w.pollState.overlaps.get? player = some portal ↔ recorded player portal)
    (h : w.step cfg ev = some t) (player portal : Entity) :
    t.pollState.overlaps.get? player = some portal ↔ recordedAfter cfg recorded w ev player portal := by
  cases ev with
  | enter e netId initialPos =>
    obtain ⟨-, h⟩ := Option.ite_none_right_eq_some.1 h
    cases h
    exact hrec player portal
  | leave e =>
    obtain ⟨b, -, rfl⟩ := Option.map_eq_some_iff.1 h
    exact hrec player portal
  | move e request =>
    obtain ⟨b, -, h⟩ := Option.bind_eq_some_iff.1 h
    obtain ⟨_, -, rfl⟩ := Option.map_eq_some_iff.1 h
    exact hrec player portal
  | restart e moveTo packetNow =>
    obtain ⟨b, -, rfl⟩ := Option.map_eq_some_iff.1 h
    exact hrec player portal
  | mobAt netId mob pos =>
    obtain ⟨-, h⟩ := Option.ite_none_right_eq_some.1 h
    cases h
    exact hrec player portal
  | mobGone netId =>
    obtain ⟨-, h⟩ := Option.ite_none_right_eq_some.1 h
    cases h
    exact hrec player portal
  | poll p =>
    cases h
    show _ ↔ (w.Due p ∧ _) ∨ (¬ w.Due p ∧ _)
    by_cases hdue : w.Due p
    · rw [hw.overlaps_after (hreach p rfl hdue) hdue]
      simp [hdue]
    · rw [processPortalEntries_of_early hdue, hrec]
      simp [hdue]

/-- A poll that is due tells of the rising edges exactly if nobody is out of its reach, and no other event tells a
player of a portal. -/
theorem step_edgeAt_iff {ev : PortalEvent} (hw : w.Settled)
    (hrec : ∀ player portal, w.pollState.overlaps.get? player = some portal ↔ recorded player portal)
    (h : w.step cfg ev = some t) : EdgeAt cfg recorded w ev t ↔ PollInReach cfg w ev := by
  cases ev with
  | enter e netId initialPos =>
    obtain ⟨⟨hfree, -⟩, h⟩ := Option.ite_none_right_eq_some.1 h
    cases h
    refine iff_of_true (fun player hplayer _ => ?_) fun _ heq => nomatch heq
    show (w.outboxes.insert e []).get? player = _
    rw [OrdMap.get?_insert, if_neg]
    rintro rfl
    rw [Option.isNone_iff_eq_none.1 hfree] at hplayer
    cases hplayer
  | leave e =>
    obtain ⟨b, -, rfl⟩ := Option.map_eq_some_iff.1 h
    refine iff_of_true (fun player _ hstays => ?_) fun _ heq => nomatch heq
    obtain ⟨c, hc⟩ := Option.isSome_iff_exists.1 hstays
    show (w.outboxes.erase e).get? player = _
    rw [OrdMap.get?_erase, if_neg (OrdMap.get?_erase_eq_some_iff.1 hc).1]
  | move e request =>
    obtain ⟨b, -, h⟩ := Option.bind_eq_some_iff.1 h
    obtain ⟨_, -, rfl⟩ := Option.map_eq_some_iff.1 h
    exact iff_of_true (fun _ _ _ => rfl) fun _ heq => nomatch heq
  | restart e moveTo packetNow =>
    obtain ⟨b, -, rfl⟩ := Option.map_eq_some_iff.1 h
    exact iff_of_true (fun _ _ _ => rfl) fun _ heq => nomatch heq
  | mobAt netId mob pos =>
    obtain ⟨-, h⟩ := Option.ite_none_right_eq_some.1 h
    cases h
    exact iff_of_true (fun _ _ _ => rfl) fun _ heq => nomatch heq
  | mobGone netId =>
    obtain ⟨-, h⟩ := Option.ite_none_right_eq_some.1 h
    cases h
    exact iff_of_true (fun _ _ _ => rfl) fun _ heq => nomatch heq
  | poll p =>
    cases h
    constructor
    · intro hedge _ heq hdue
      cases heq
      exact hw.inReach_of_edge (hedge.1 hdue)
    · intro hreach
      refine ⟨fun hdue => hw.edge (hreach p rfl hdue) hrec hdue, fun hearly => ?_⟩
      rw [processPortalEntries_of_early hearly]
      exact fun _ _ _ => rfl

/-- From a settled map that remembers what is recorded, a run pushes on the rising edges only, and on each, exactly if
nobody is out of the reach of its polls. -/
theorem risingEdges_iff : ∀ {es : List PortalEvent} {w : MapWorld} {recorded : Entity → Entity → Prop}, w.Settled →
    (∀ player portal, w.pollState.overlaps.get? player = some portal ↔ recorded player portal) →
      (RisingEdges cfg recorded w es ↔ Meets (MapWorld.step cfg) (PollInReach cfg) w es)
  | [], _, _, _, _ => Iff.rfl
  | ev :: _, w, recorded, hw, hrec => by
    constructor
    · intro h
      have hreach : PollInReach cfg w ev := by
        rintro p rfl hdue
        exact (step_edgeAt_iff hw hrec rfl).1 (h _ rfl).1 p rfl hdue
      exact ⟨hreach, fun t ht =>
        (risingEdges_iff (step_settled hw ht) (step_recorded hw hreach hrec ht)).1 (h t ht).2⟩
    · rintro ⟨hreach, hall⟩ t ht
      exact ⟨(step_edgeAt_iff hw hrec ht).2 hreach,
        (risingEdges_iff (step_settled hw ht) (step_recorded hw hreach hrec ht)).2 (hall t ht)⟩

theorem risingEdges_start_iff {es : List PortalEvent} : RisingEdges cfg (fun _ _ => False) .start es ↔
    Meets (MapWorld.step cfg) (PollInReach cfg) .start es :=
  risingEdges_iff settled_start fun _ _ => iff_of_false nofun id

/-- From a map without players, every run whose moves are kept, and in which nobody stands at the very rim of a query
that should find them, pushes portal events on rising edges only, and on each. -/
theorem portal_entries_rise (cfg : PortalConfig) (es : List PortalEvent)
    (h : Meets (MapWorld.step cfg) (fun w ev => MoveKept cfg w ev ∧ PollOffRim cfg w ev) .start es) :
    RisingEdges cfg (fun _ _ => False) .start es := by
  refine risingEdges_start_iff.2
    (h.of_inv (I := MapWorld.InStep) (fun w ev t hw hC ht => step_inStep hw hC.1 ht) ?_ nofun)
  intro w ev hw hC p hev hdue
  exact hw.inReach (hC.2 p hev hdue)

end Runs

/-! ## Players on the map -/

section OnMap

variable {cfg : PortalConfig} {w t : MapWorld} {player : Entity} {b : PlayerBody}

/-- The whole segment of the player is on the map. -/
structure PlayerBody.Inside (size : LocalSize) (b : PlayerBody) : Prop where
  pos : OnMap size b.pos
  start : OnMap size b.motion.segmentStartPos
  ends : OnMap size b.motion.segmentEndPos

/-- Players enter, and are placed anew, on the map. -/
def PlacedOnMap (cfg : PortalConfig) (ev : PortalEvent) : Prop :=
  match ev with
  | .enter _ _ initialPos => OnMap cfg.localSize initialPos
  | .restart _ (some pos) _ => OnMap cfg.localSize pos
  | _ => True

def MapWorld.AllInside (cfg : PortalConfig) (w : MapWorld) : Prop :=
  ∀ e b, w.players.get? e = some b → b.Inside cfg.localSize

theorem inside_standing {size : LocalSize} {pos : LocalPos} (h : OnMap size pos) (netId : EntityId) (ts : Nat) :
    PlayerBody.Inside size ⟨netId, pos, .standing pos ts⟩ := ⟨h, h, h⟩

theorem step_allInside {ev : PortalEvent} (hw : w.AllInside cfg) (hplaced : PlacedOnMap cfg ev)
    (h : w.step cfg ev = some t) :
    t.AllInside cfg := by
  cases ev with
  | enter player netId initialPos =>
    obtain ⟨-, h⟩ := Option.ite_none_right_eq_some.1 h
    cases h
    exact fun e c => forall_insert hw (inside_standing hplaced netId 0)
  | leave player =>
    obtain ⟨b, -, rfl⟩ := Option.map_eq_some_iff.1 h
    exact fun e c hc => hw e c (OrdMap.get?_erase_eq_some_iff.1 hc).2
  | move player request =>
    obtain ⟨b, hb, h⟩ := Option.bind_eq_some_iff.1 h
    obtain ⟨⟨endPos, motion⟩, hplan, rfl⟩ := Option.map_eq_some_iff.1 h
    obtain ⟨hend, rfl, hstart⟩ := buildPlayerMoveAction_spec hplan
    have hon := onMap_sanitized hend
    obtain ⟨hpos, hs, he⟩ := hw player b hb
    refine fun e c => forall_insert hw ⟨hon, ?_, hon⟩
    obtain hstart | hstart := hstart
    · rw [hstart]
      exact onMap_oldPos hpos hs he
    · rw [hstart]
      exact hon
  | restart player moveTo packetNow =>
    obtain ⟨b, hb, rfl⟩ := Option.map_eq_some_iff.1 h
    cases moveTo with
    | none => exact fun e c => forall_insert hw (inside_standing (hw player b hb).pos b.netId packetNow)
    | some pos => exact fun e c => forall_insert hw (inside_standing hplaced b.netId packetNow)
  | mobAt netId mob pos =>
    obtain ⟨-, h⟩ := Option.ite_none_right_eq_some.1 h
    cases h
    exact hw
  | mobGone netId =>
    obtain ⟨-, h⟩ := Option.ite_none_right_eq_some.1 h
    cases h
    exact hw
  | poll p =>
    cases h
    unfold processPortalEntries
    split
    · exact hw
    · exact hw

/-- Where every player enters on the map and is placed anew on the map only, every move is kept. -/
theorem meets_moveKept_of_placedOnMap (es : List PortalEvent) (h : ∀ ev ∈ es, PlacedOnMap cfg ev) :
    Meets (MapWorld.step cfg) (MoveKept cfg) .start es := by
  refine Meets.of_inv (I := MapWorld.AllInside cfg) (fun w ev t => step_allInside) ?_ nofun (.of_forall h)
  rintro w _ hw _ player request b rfl hb
  obtain ⟨hpos, hs, he⟩ := hw player b hb
  exact stepKept_of_onMap (onMap_oldPos hpos hs he)

end OnMap

/-! ## A walk away from a gate -/

section Gate

/-- The digits of a number. -/
def parseDigits (text : Text) : Option ℝ :=
  if text ≠ [] ∧ text.all Char.isDigit then
    some ((text.foldl (fun n c => 10 * n + (c.toNat - 48)) 0 : Nat) : ℝ)
  else none

/-- A map of a hundred meters with one kind of mob, a gate that leads to another map. -/
def gateMap : PortalConfig where
  localSize := ⟨1e2, 1e2⟩
  mobs _ := some ⟨.portal .mapTransfer, "Gate 10 20".toList⟩
  parseF32 := parseDigits

noncomputable def gatePoll : Poll where
  simNow := 1000
  packetNow := 1000
  mobs := [⟨⟨2, 0⟩, ⟨50, 7⟩, ⟨1⟩⟩]
  distinct := List.nodup_singleton _
  query := .inOrder EntityId distance
  order := id
  order_perm _ := .refl _

noncomputable def gate : PortalEntry := ⟨⟨2, 0⟩, ⟨50, 7⟩, .mapTransfer ⟨10, 20⟩⟩

theorem collectPortals_gate : collectPortals gateMap gatePoll.mobs = [gate] := by
  have hwords : (wordsFrom [] "Gate 10 20".toList).reverse = ["20".toList, "10".toList, "Gate".toList] := by decide
  have hten : parseDigits "10".toList = some ((10 : Nat) : ℝ) := if_pos (by decide)
  have htwenty : parseDigits "20".toList = some ((20 : Nat) : ℝ) := if_pos (by decide)
  have hdest : parsePortalDestination parseDigits .mapTransfer "Gate 10 20".toList = some (.mapTransfer ⟨10, 20⟩) := by
    simp only [parsePortalDestination, hwords, htwenty, hten, Option.bind_some, Option.map_some, Nat.cast_ofNat]
  have hentry : portalEntry gateMap ⟨⟨2, 0⟩, ⟨50, 7⟩, ⟨1⟩⟩ = some gate := by
    simp only [portalEntry, gateMap, Option.bind_some, hdest, Option.map_some]
    rfl
  show List.filterMap (portalEntry gateMap) [⟨⟨2, 0⟩, ⟨50, 7⟩, ⟨1⟩⟩] = _
  rw [List.filterMap_cons_some hentry, List.filterMap_nil]

def walker : Entity := ⟨1, 0⟩

/-- Three meters to the north of the gate. -/
noncomputable def atGate : LocalPos := ⟨50, 10⟩

/-- A walk to the north that takes five seconds, however long it is. -/
noncomputable def walkTo (y : ℝ) : MoveRequest := ⟨.move, ⟨50, y⟩, 1000, fun _ _ => 5000⟩

noncomputable def gateMotion (y : ℝ) : PlayerMotionState := ⟨atGate, ⟨50, y⟩, 1000, 6000, 1000⟩

/-- A player enters at the gate and walks off; the poll comes as it sets out. -/
noncomputable def gateWalk (y : ℝ) : List PortalEvent :=
  [.enter walker ⟨7⟩ atGate, .move walker (walkTo y), .poll gatePoll]

theorem distance_north (a b : ℝ) : distance ⟨50, a⟩ ⟨50, b⟩ = |a - b| := by
  rw [distance_eq, dist_plane, sub_self, zero_pow two_ne_zero, zero_add, Real.sqrt_sq_eq_abs]

theorem plan_gateWalk {y : ℝ} (hlo : 10 ≤ y) (hhi : y ≤ 35) :
    buildPlayerMoveAction gateMap.localSize ⟨⟨7⟩, atGate, .standing atGate 0⟩ (walkTo y) =
      some (⟨50, y⟩, gateMotion y) := by
  have hold : samplePlayerMotionStateAt atGate (.standing atGate 0) 1000 = atGate := if_pos (.inl rfl)
  have hstep : sanitizePacketTarget atGate ⟨50, y⟩ = ⟨50, y⟩ := by
    refine if_pos (.inl ?_)
    show distance ⟨50, 10⟩ ⟨50, y⟩ ≤ maxMovePacketStepM
    rw [distance_north, abs_le]
    constructor <;> norm_num [maxMovePacketStepM] <;> linarith
  have hmap : sanitizePlayerTargetToMap ⟨50, y⟩ gateMap.localSize = some ⟨50, y⟩ :=
    sanitizePlayerTargetToMap_eq_some_iff.2
      ⟨clampAxisToMap_of_mem (by norm_num) (by norm_num [gateMap]),
        clampAxisToMap_of_mem (by linarith) (by norm_num [gateMap]; linarith)⟩
  simp only [buildPlayerMoveAction, walkTo, hold, hstep, hmap, Option.map_some]
  rfl

/-- The map when the poll comes: the player stands at the end of its way and is still seen at the gate. -/
noncomputable def walkingOff (y : ℝ) : MapWorld :=
  (MapWorld.start.addPlayer walker ⟨7⟩ atGate).applyPlayerMotion walker ⟨⟨7⟩, atGate, .standing atGate 0⟩ ⟨50, y⟩
    (gateMotion y)

theorem step_enter_gate :
    MapWorld.step gateMap .start (.enter walker ⟨7⟩ atGate) = some (MapWorld.start.addPlayer walker ⟨7⟩ atGate) := by
  unfold MapWorld.step
  exact if_pos ⟨rfl, rfl⟩

theorem step_walkTo {y : ℝ} (hlo : 10 ≤ y) (hhi : y ≤ 35) :
    MapWorld.step gateMap (MapWorld.start.addPlayer walker ⟨7⟩ atGate) (.move walker (walkTo y)) =
      some (walkingOff y) := by
  have hb : (MapWorld.start.addPlayer walker ⟨7⟩ atGate).players.get? walker =
      some ⟨⟨7⟩, atGate, .standing atGate 0⟩ := by
    unfold MapWorld.addPlayer
    rw [OrdMap.get?_insert, if_pos rfl]
  unfold MapWorld.step
  simp only [hb, Option.bind_some, plan_gateWalk hlo hhi, Option.map_some]
  rfl

/-- Only the walker is there. -/
theorem players_walkingOff {y : ℝ} {player : Entity} {b : PlayerBody} :
    (walkingOff y).players.get? player = some b ↔ player = walker ∧ b = ⟨⟨7⟩, ⟨50, y⟩, gateMotion y⟩ := by
  unfold walkingOff MapWorld.applyPlayerMotion MapWorld.addPlayer
  rw [OrdMap.get?_insert, OrdMap.get?_insert]
  by_cases h : player = walker
  · simp [h, eq_comm]
  · simp [h, MapWorld.start]

theorem portal_entries_rise_gateWalk : RisingEdges gateMap (fun _ _ => False) .start (gateWalk 34) := by
  have hon : OnMap gateMap.localSize atGate :=
    sanitizePlayerTargetToMap_eq_some_iff.2
      ⟨clampAxisToMap_of_mem (by norm_num [atGate]) (by norm_num [atGate, gateMap]),
        clampAxisToMap_of_mem (by norm_num [atGate]) (by norm_num [atGate, gateMap])⟩
  have hplaced : ∀ ev ∈ gateWalk 34, PlacedOnMap gateMap ev := by
    intro ev hev
    simp only [gateWalk, List.mem_cons, List.not_mem_nil, or_false] at hev
    obtain rfl | rfl | rfl := hev
    · exact hon
    · trivial
    · trivial
  have hrim : Meets (MapWorld.step gateMap) (PollOffRim gateMap) .start (gateWalk 34) := by
    have hother : ∀ {w ev}, (∀ p, ev ≠ .poll p) → PollOffRim gateMap w ev := fun h p heq => absurd heq (h p)
    refine ⟨hother (by simp), fun t ht => ⟨hother (by simp), fun u hu => ⟨?_, fun _ _ => trivial⟩⟩⟩
    rw [step_enter_gate] at ht
    cases ht
    rw [step_walkTo (by norm_num) (by norm_num)] at hu
    cases hu
    intro p hev _ player b hb q hq _
    cases hev
    obtain ⟨rfl, rfl⟩ := players_walkingOff.1 hb
    rw [collectPortals_gate, List.mem_singleton] at hq
    rw [hq]
    show distance ⟨50, 7⟩ ⟨50, 34⟩ ≠ _
    rw [distance_north]
    norm_num [maxMovePacketStepM, portalOverlapRadiusM, abs_of_neg]
  exact portal_entries_rise gateMap (gateWalk 34) ((meets_moveKept_of_placedOnMap _ hplaced).and hrim)

/-- A step of twenty-five meters straight away from a gate three meters behind: the player is seen to overlap the gate
and is not told of it, for it stands at the radius of the query. -/
theorem portal_entries_atRim : ¬ RisingEdges gateMap (fun _ _ => False) .start (gateWalk 35) := by
  rw [risingEdges_start_iff]
  intro hrun
  obtain ⟨-, hrun⟩ := hrun
  obtain ⟨-, hrun⟩ := hrun _ step_enter_gate
  obtain ⟨hpoll, -⟩ := hrun _ (step_walkTo (by norm_num) le_rfl)
  have hseen : samplePlayerVisualPositionAt (gateMotion 35) 1000 = atGate := (if_neg (by decide)).trans (if_pos le_rfl)
  have hnear : gate.Overlaps (samplePlayerVisualPositionAt (gateMotion 35) 1000) := by
    rw [hseen]
    show distance ⟨50, 7⟩ ⟨50, 10⟩ ≤ _
    rw [distance_north]
    norm_num [portalOverlapRadiusM, abs_of_neg]
  have hin : gate ∈ collectPortals gateMap gatePoll.mobs := by
    rw [collectPortals_gate]
    exact List.mem_cons_self
  have hfar := hpoll gatePoll rfl (Nat.zero_le _) walker _ (players_walkingOff.2 ⟨rfl, rfl⟩) gate hin hnear
  have hrim : distance gate.pos ⟨50, 35⟩ = 28 := by
    show distance ⟨50, 7⟩ ⟨50, 35⟩ = 28
    rw [distance_north]
    norm_num [abs_of_neg]
  rw [hrim] at hfar
  norm_num [maxMovePacketStepM, portalOverlapRadiusM] at hfar

end Gate

end Zohar.Portal
