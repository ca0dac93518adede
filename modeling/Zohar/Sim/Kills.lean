/-
One reward for a kill, to the killer. The history of a mob is a beginning of one story: a hit takes its HP, it is dying,
it is dead, the killer may be rewarded, it is removed. The invariant ties the story to the mob's life, HP and claim and
to the facts of the frame.
-/
import Zohar.Sim.Turns

namespace Zohar.Sim

open Zohar.Lib Zohar.Stats
open Zohar.Replication (EntityId)
open Zohar.Spawn (MobId)

/-! ## Histories -/

/-- What the history says about a mob. -/
inductive Mark where
  | slain (killer : ActorRef)
  | dying
  | dead
  | awarded (player : ActorRef)
  | despawned
  deriving DecidableEq

def LifeRecord.mark? (e : Entity) : LifeRecord → Option Mark
  | .hit attacker victim previous current =>
    if victim = e ∧ 0 < previous ∧ current ≤ 0 then some (.slain attacker) else none
  | .dying a => if a = e then some .dying else none
  | .dead a => if a = e then some .dead else none
  | .awarded mob player => if mob = e then some (.awarded player) else none
  | .despawned mob => if mob = e then some .despawned else none
  | .spawned _ | .entered _ | .left _ => none

/-- The deaths of an entity with all that belongs to them, in order. -/
def chronicle (e : Entity) (log : List LifeRecord) : List Mark := log.filterMap (LifeRecord.mark? e)

def OnMap (player : ActorRef) (log : List LifeRecord) : Prop := .entered player ∈ log ∧ .left player ∉ log

/-- What holds of the history before an award: the player made the one hit that took the mob's HP, the mob has died
since, and the player is on the map, as it was when the death was finalized. -/
structure Credited (mob : Entity) (player : ActorRef) (log : List LifeRecord) : Prop where
  spawned : .spawned mob ∈ log
  killer : chronicle mob log = [.slain player, .dying, .dead]
  finalized : ∃ a b, log = a ++ .dead mob :: b ∧ OnMap player a
  present : OnMap player log

@[simp] theorem chronicle_append (e : Entity) (log log' : List LifeRecord) :
    chronicle e (log ++ log') = chronicle e log ++ chronicle e log' := List.filterMap_append

@[simp] theorem chronicle_nil (e : Entity) : chronicle e [] = [] := rfl

theorem chronicle_toList (e : Entity) (r : Option LifeRecord) :
    chronicle e r.toList = (r.bind (LifeRecord.mark? e)).toList := by
  cases r with
  | none => rfl
  | some r =>
    simp only [chronicle, Option.toList_some, Option.bind_some, List.filterMap_cons, List.filterMap_nil]
    cases LifeRecord.mark? e r <;> rfl

/-- A record that is appended is the last one, or comes after the split. -/
theorem split_append_toList {log a b : List LifeRecord} {r : Option LifeRecord} {x : LifeRecord}
    (h : log ++ r.toList = a ++ x :: b) : (a = log ∧ r = some x) ∨ ∃ b', log = a ++ x :: b' := by
  cases r with
  | none => exact .inr ⟨b, by simpa using h⟩
  | some r =>
    rcases List.eq_nil_or_concat b with rfl | ⟨b', y, rfl⟩
    · obtain ⟨rfl, hx⟩ := List.append_inj' h rfl
      cases hx
      exact .inl ⟨rfl, rfl⟩
    · rw [List.concat_eq_append, ← List.cons_append, ← List.append_assoc] at h
      exact .inr ⟨b', (List.append_inj' h rfl).1⟩

/-- A record of an entity that comes or goes. -/
def LifeRecord.isTraffic : LifeRecord → Bool
  | .spawned _ | .entered _ | .left _ => true
  | _ => false

theorem chronicle_traffic (e : Entity) (log : List LifeRecord) {r : LifeRecord} (hr : r.isTraffic = true) :
    chronicle e (log ++ [r]) = chronicle e log := by
  have hm : r.mark? e = none := by cases r <;> first | rfl | cases hr
  simp [chronicle, hm]

/-- What is written, if anything, is about one entity and nobody comes or goes by it. -/
def About (e : Entity) (r : Option LifeRecord) : Prop :=
  ∀ x, r = some x → x.isTraffic = false ∧ ∀ e', e' ≠ e → x.mark? e' = none

/-- A later state of the same actor. -/
structure Actor.Follows (a a' : Actor) : Prop where
  netId : a'.netId = a.netId
  player : ∀ {p}, a.role = .player p → ∃ p', a'.role = .player p' ∧ p'.playerId = p.playerId
  mob : ∀ {m}, a.role = .mob m → ∃ m', a'.role = .mob m'
  died : a.isMob → a.life.isDead → a'.life.isDead

theorem Actor.Follows.of_player {a a' : Actor} (h : a.Follows a') {p : PlayerComps} (hp : a'.role = .player p) :
    ∃ p, a.role = .player p := by
  cases hr : a.role with
  | player p => exact ⟨p, rfl⟩
  | mob m =>
    obtain ⟨m', hm'⟩ := h.mob hr
    rw [hp] at hm'
    cases hm'

theorem Actor.Follows.of_mob {a a' : Actor} (h : a.Follows a') {m : MobComps} (hm : a'.role = .mob m) :
    ∃ m, a.role = .mob m := by
  cases hr : a.role with
  | mob m => exact ⟨m, rfl⟩
  | player p =>
    obtain ⟨p', hp', _⟩ := h.player hr
    rw [hm] at hp'
    cases hp'

theorem Actor.Follows.dead {a a' : Actor} (h : a.Follows a') (hm : a.isMob) (hd : a.life.isDead) :
    a'.isMob ∧ a'.life.isDead := by
  refine ⟨?_, h.died hm hd⟩
  cases hr : a.role with
  | player p => simp [Actor.isMob, hr] at hm
  | mob m =>
    obtain ⟨m', hm'⟩ := h.mob hr
    simp [Actor.isMob, hm']

/-! ## The invariant -/

/-- The story of a mob on the map; `owed` says that its HP is depleted and its dying is due in this frame. -/
def MobStory (a : Actor) (claim : Option ActorRef) (owed : Prop) (story : List Mark) : Prop :=
  match a.life with
  | .alive => claim = none ∧ ((0 < a.hp ∧ story = []) ∨ (a.hp ≤ 0 ∧ owed ∧ ∃ k, story = [.slain k]))
  | .dying .. => ∃ k, story = [.slain k, .dying] ∧ ∀ k', claim = some k' → k' = k
  | .dead .. => ∃ k, (story = [.slain k, .dying, .dead] ∧ ∀ k', claim = some k' → k' = k) ∨
      (story = [.slain k, .dying, .dead, .awarded k] ∧ claim = none)

/-- The story of a mob that was removed. -/
def Closed (story : List Mark) : Prop :=
  ∃ k, story = [.slain k, .dying, .dead, .despawned] ∨ story = [.slain k, .dying, .dead, .awarded k, .despawned]

/-- The map and its history. `owed` are the depletions whose dying is due, `marked` those that may become claims, and
`begun` says that some of these may be dying by now. -/
structure Ledger (w : LifeWorld) (owed marked : List ActorHpDepleted) (begun : Bool) : Prop where
  below : ∀ e a, w.actors.get? e = some a → e.raw < w.nextEntity
  fresh : ∀ e : Entity, w.nextEntity ≤ e.raw → chronicle e w.log = [] ∧ .spawned e ∉ w.log ∧ ∀ n, .left ⟨e, n⟩ ∉ w.log
  index : ∀ pid e, w.playerIndex.get? pid = some e → ∃ a p, w.actors.get? e = some a ∧ a.role = .player p ∧
    p.playerId = pid
  player : ∀ e a p, w.actors.get? e = some a → a.role = .player p → OnMap ⟨e, a.netId⟩ w.log ∧ .spawned e ∉ w.log
  mob : ∀ e a m, w.actors.get? e = some a → a.role = .mob m → .spawned e ∈ w.log ∧
    MobStory a m.claim (∃ d ∈ owed, d.victim = ⟨e, a.netId⟩) (chronicle e w.log)
  gone : ∀ e, .spawned e ∈ w.log → w.actors.get? e = none → Closed (chronicle e w.log)
  marks : ∀ d ∈ marked, ∀ a m, w.actors.get? d.victim.entity = some a → a.role = .mob m →
    ∃ k, d.killer = some k ∧ (chronicle d.victim.entity w.log = [.slain k] ∨
      (begun ∧ chronicle d.victim.entity w.log = [.slain k, .dying]))
  finalized : ∀ d ∈ w.deathFinalized, ∃ a b, w.log = a ++ .dead d.entity :: b ∧ ∀ r ∈ b, r.isTraffic = false
  due : ∀ d ∈ w.cleanupDue, ∀ a, w.actors.get? d.entity = some a → a.isMob ∧ a.life.isDead
  credit : ∀ a b m p, w.log = a ++ .awarded m p :: b → Credited m p a

theorem ledger_empty : Ledger .empty [] [] false where
  below _ _ h := by cases h
  fresh _ _ := ⟨rfl, by simp [LifeWorld.empty], by simp [LifeWorld.empty]⟩
  index _ _ h := by cases h
  player _ _ _ h := by cases h
  mob _ _ _ h := by cases h
  gone _ h := by simp [LifeWorld.empty] at h
  marks _ h := by cases h
  finalized _ h := by cases h
  due _ h := by cases h
  credit a b m p h := by simp [LifeWorld.empty] at h

theorem MobStory.of_owed {a : Actor} {claim : Option ActorRef} {p q : Prop} {story : List Mark}
    (h : MobStory a claim p story) (hpq : p → q) : MobStory a claim q story := by
  unfold MobStory at h ⊢
  split
  · rename_i hl
    rw [hl] at h
    exact ⟨h.1, h.2.imp id fun ⟨hhp, hp, hk⟩ => ⟨hhp, hpq hp, hk⟩⟩
  · rename_i hl
    rw [hl] at h
    exact h
  · rename_i hl
    rw [hl] at h
    exact h

theorem MobStory.dropClaim {v : Actor} {m : MobComps} {p : Prop} {story : List Mark} (h : MobStory v m.claim p story) :
    MobStory { v with role := .mob { m with claim := none } } none p story := by
  cases hl : v.life with
  | alive =>
    simp only [MobStory, hl] at h ⊢
    exact ⟨trivial, h.2⟩
  | dying t t' =>
    simp only [MobStory, hl] at h ⊢
    obtain ⟨k, hk, _⟩ := h
    exact ⟨k, hk, nofun⟩
  | dead _ _ _ _ _ =>
    simp only [MobStory, hl] at h ⊢
    obtain ⟨k, ⟨hk, _⟩ | ⟨hk, _⟩⟩ := h
    · exact ⟨k, .inl ⟨hk, nofun⟩⟩
    · exact ⟨k, .inr ⟨hk, trivial⟩⟩

theorem isDying_eq {life : ActorLifePhase} (h : life.isDying) : ∃ t t', life = .dying t t' := by
  cases life with
  | dying t t' => exact ⟨t, t', rfl⟩
  | alive => cases h
  | dead _ _ _ _ _ => cases h

theorem isDead_deathPhase (now : Nat) (a : Actor) : (deathPhase now a).isDead := by
  unfold deathPhase
  split <;> rfl

theorem MobStory.of_dead {a : Actor} {claim : Option ActorRef} {p : Prop} {story : List Mark} (hd : a.life.isDead) :
    MobStory a claim p story ↔ ∃ k, (story = [.slain k, .dying, .dead] ∧ ∀ k', claim = some k' → k' = k) ∨
      (story = [.slain k, .dying, .dead, .awarded k] ∧ claim = none) := by
  unfold MobStory
  split
  · rename_i hl; rw [hl] at hd; cases hd
  · rename_i hl; rw [hl] at hd; cases hd
  · rfl

/-- A hit writes a mark exactly if it takes the HP. -/
theorem chronicle_hit (e : Entity) (log : List LifeRecord) (k : ActorRef) (previous current : Int) :
    chronicle e (log ++ [LifeRecord.hit k e previous current]) =
      if 0 < previous ∧ current ≤ 0 then chronicle e log ++ [Mark.slain k] else chronicle e log := by
  by_cases hk : 0 < previous ∧ current ≤ 0
  · simp [chronicle, LifeRecord.mark?, hk]
  · simp [chronicle, LifeRecord.mark?, hk]

theorem about_hit (k : ActorRef) (e : Entity) (previous current : Int) :
    About e (some (.hit k e previous current)) := by
  rintro _ ⟨⟩
  exact ⟨rfl, fun e' hne => by simp [LifeRecord.mark?, hne.symm]⟩

theorem mem_chronicle_dead {e : Entity} {log : List LifeRecord} (h : .dead e ∈ log) : Mark.dead ∈ chronicle e log :=
  List.mem_filterMap.2 ⟨_, h, by simp [LifeRecord.mark?]⟩

namespace Ledger

variable {w w' : LifeWorld} {owed owed' marked marked' : List ActorHpDepleted} {begun begun' : Bool}

/-- Depletions may be owed without a mob that waits, and marks may be dropped. -/
theorem weaken (h : Ledger w owed marked begun) (ho : ∀ d ∈ owed, d ∈ owed') (hm : ∀ d ∈ marked', d ∈ marked)
    (hb : begun → begun') : Ledger w owed' marked' begun' :=
  { h with
    mob := fun e a m ha hr => ⟨(h.mob e a m ha hr).1, (h.mob e a m ha hr).2.of_owed fun ⟨d, hd, hv⟩ => ⟨d, ho d hd, hv⟩⟩
    marks := fun d hd a m ha hr => (h.marks d (hm d hd) a m ha hr).imp fun _ hk =>
      ⟨hk.1, hk.2.imp id fun hc => ⟨hb hc.1, hc.2⟩⟩ }

/-- Without marks it does not matter who is dying. -/
theorem unmarked (h : Ledger w owed [] begun) : Ledger w owed [] begun' := { h with marks := fun _ hd => by cases hd }

/-- A depletion is paid off once its actor is not alive. -/
theorem drop {d : ActorHpDepleted} (h : Ledger w (d :: owed) marked begun)
    (hd : ∀ a, w.actors.get? d.victim.entity = some a → a.netId = d.victim.id → a.life ≠ .alive) :
    Ledger w owed marked begun where
  below := h.below
  fresh := h.fresh
  index := h.index
  player := h.player
  mob e a m ha hr := by
    refine ⟨(h.mob e a m ha hr).1, ?_⟩
    have hs := (h.mob e a m ha hr).2
    unfold MobStory at hs ⊢
    split
    · rename_i hl
      simp only [hl] at hs
      refine ⟨hs.1, hs.2.imp id ?_⟩
      rintro ⟨hhp, ⟨d', hd', hv⟩, hk⟩
      refine ⟨hhp, ⟨d', ?_, hv⟩, hk⟩
      rcases List.mem_cons.1 hd' with rfl | hd'
      · exact absurd hl (hd a (by rw [hv]; exact ha) (by rw [hv]))
      · exact hd'
    · rename_i hl; simpa only [hl] using hs
    · rename_i hl; simpa only [hl] using hs
  gone := h.gone
  marks := h.marks
  finalized := h.finalized
  due := h.due
  credit := h.credit

/-- Nothing of the map is touched but what the invariant does not read. -/
theorem frame (h : Ledger w owed marked begun) (ha : w'.actors = w.actors) (hn : w'.nextEntity = w.nextEntity)
    (hi : w'.playerIndex = w.playerIndex) (hl : w'.log = w.log)
    (hf : ∀ d ∈ w'.deathFinalized, d ∈ w.deathFinalized)
    (hd : ∀ d ∈ w'.cleanupDue, d ∈ w.cleanupDue ∨ ∀ a, w.actors.get? d.entity = some a → a.isMob ∧ a.life.isDead) :
    Ledger w' owed marked begun where
  below := by rw [ha, hn]; exact h.below
  fresh := by rw [hl, hn]; exact h.fresh
  index := by rw [ha, hi]; exact h.index
  player := by rw [ha, hl]; exact h.player
  mob := by rw [ha, hl]; exact h.mob
  gone := by rw [ha, hl]; exact h.gone
  marks := by rw [ha, hl]; exact h.marks
  finalized d hd := by rw [hl]; exact h.finalized d (hf d hd)
  due d hd' := by
    rw [ha]
    rcases hd d hd' with hd | hd
    · exact h.due d hd
    · exact hd
  credit := by rw [hl]; exact h.credit

/-- An actor that is on the map changes, and at most one record is written, about that actor. Its own story, and the
depletions that name it, are the caller's to give. -/
theorem change (h : Ledger w owed marked begun) {e : Entity} {a z : Actor} {r : Option LifeRecord}
    {log' : List LifeRecord}
    {df' : List ActorRef} {hp' : List ActorHpDepleted} (h0 : w.actors.get? e = some a) (hfol : a.Follows z)
    (hl : log' = w.log ++ r.toList) (habout : About e r)
    (hf : ∀ d ∈ df', d ∈ w.deathFinalized ∨ r = some (.dead d.entity))
    (hcredit : ∀ m p, r = some (.awarded m p) → Credited m p w.log)
    (howed : ∀ d ∈ owed, d.victim.entity ≠ e → d ∈ owed')
    (hmarked : ∀ d ∈ marked', d.victim.entity ≠ e → d ∈ marked)
    (hstory : ∀ m, z.role = .mob m → MobStory z m.claim (∃ d ∈ owed', d.victim = ⟨e, z.netId⟩) (chronicle e log'))
    (hnewMarks : ∀ d ∈ marked', d.victim.entity = e → ∀ m, z.role = .mob m →
      ∃ k, d.killer = some k ∧ (chronicle e log' = [.slain k] ∨ (begun ∧ chronicle e log' = [.slain k, .dying]))) :
    Ledger { w with actors := w.actors.insert e z, log := log', deathFinalized := df', hpDepleted := hp' } owed' marked'
      begun := by
  have hmem : ∀ x, x.isTraffic = true → (x ∈ log' ↔ x ∈ w.log) := by
    intro x hx
    rw [hl, List.mem_append, Option.mem_toList]
    refine ⟨fun hx' => hx'.resolve_right fun he => ?_, .inl⟩
    rw [(habout x he).1] at hx
    cases hx
  have hother : ∀ e', e' ≠ e → chronicle e' log' = chronicle e' w.log := by
    intro e' hne
    rw [hl, chronicle_append, chronicle_toList]
    cases r with
    | none => simp
    | some x => simp [(habout x rfl).2 e' hne]
  refine ⟨?_, ?_, ?_, ?_, ?_, ?_, ?_, ?_, ?_, ?_⟩
  all_goals simp only [OrdMap.get?_insert]
  · intro e' x hx
    split at hx
    · rename_i he; rw [he]; exact h.below e a h0
    · exact h.below e' x hx
  · intro e' he'
    have hne : e' ≠ e := by rintro rfl; exact absurd (h.below _ _ h0) (not_lt.2 he')
    obtain ⟨h1, h2, h3⟩ := h.fresh e' he'
    exact ⟨(hother e' hne).trans h1, by rw [hmem _ rfl]; exact h2, fun n => by rw [hmem _ rfl]; exact h3 n⟩
  · intro pid e' hpid
    obtain ⟨x, p, hx, hp, hpp⟩ := h.index pid e' hpid
    by_cases he : e' = e
    · subst he
      rw [h0] at hx
      cases hx
      obtain ⟨p', hp', hpid'⟩ := hfol.player hp
      exact ⟨z, p', if_pos rfl, hp', hpid'.trans hpp⟩
    · exact ⟨x, p, (if_neg he).trans hx, hp, hpp⟩
  · intro e' x p hx hp
    unfold OnMap
    rw [hmem _ rfl, hmem _ rfl, hmem _ rfl]
    split at hx
    · rename_i he
      cases hx
      subst he
      obtain ⟨p0, hp0⟩ := hfol.of_player hp
      rw [hfol.netId]
      exact h.player e' a p0 h0 hp0
    · exact h.player e' x p hx hp
  · intro e' x m hx hm
    rw [hmem _ rfl]
    split at hx
    · rename_i he
      cases hx
      subst he
      obtain ⟨m0, hm0⟩ := hfol.of_mob hm
      exact ⟨(h.mob e' a m0 h0 hm0).1, hstory m hm⟩
    · rename_i he
      rw [hother e' he]
      refine ⟨(h.mob e' x m hx hm).1, (h.mob e' x m hx hm).2.of_owed ?_⟩
      rintro ⟨d, hd, hv⟩
      exact ⟨d, howed d hd (by rw [hv]; exact he), hv⟩
  · intro e' hs hx
    rw [hmem _ rfl] at hs
    split at hx
    · cases hx
    · rename_i he
      rw [hother e' he]
      exact h.gone e' hs hx
  · intro d hd x m hx hm
    by_cases he : d.victim.entity = e
    · rw [if_pos he] at hx
      cases hx
      rw [he]
      exact hnewMarks d hd he m hm
    · rw [if_neg he] at hx
      rw [hother _ he]
      exact h.marks d (hmarked d hd he) x m hx hm
  · intro d hd
    rcases hf d hd with hd | rfl
    · obtain ⟨b, c, hbc, hq⟩ := h.finalized d hd
      refine ⟨b, c ++ r.toList, by rw [hl, hbc]; simp, fun x hx => ?_⟩
      rcases List.mem_append.1 hx with hx | hx
      · exact hq x hx
      · exact (habout x (Option.mem_toList.1 hx)).1
    · exact ⟨w.log, [], hl, by simp⟩
  · intro d hd x hx
    split at hx
    · rename_i he
      cases hx
      obtain ⟨hmob, hdead⟩ := h.due d hd a (he ▸ h0)
      exact hfol.dead hmob hdead
    · exact h.due d hd x hx
  · intro b c m p hlog
    rw [hl] at hlog
    rcases split_append_toList hlog with ⟨rfl, hr⟩ | ⟨c', hc⟩
    · exact hcredit m p hr
    · exact h.credit b c' m p hc

/-! ## Players -/

theorem putPlayer (h : Ledger w owed marked begun) {e : Entity} {a z : Actor} {p p' : PlayerComps}
    (h0 : w.actors.get? e = some a) (hp : a.role = .player p) (hid : z.netId = a.netId) (hp' : z.role = .player p')
    (hpp : p'.playerId = p.playerId) : Ledger (w.put e z) owed marked begun := by
  have hrole : ∀ m, z.role ≠ .mob m := fun m hm => by rw [hp'] at hm; cases hm
  refine h.change (r := none) h0 ⟨hid, fun {q} hq => ⟨p', hp', ?_⟩, fun {m} hm => ?_, fun hm _ => ?_⟩ (by simp)
    (fun _ hx => by cases hx) (fun d hd => .inl hd) (fun _ _ hr => by cases hr) (fun d hd _ => hd) (fun d hd _ => hd)
    (fun m hm => absurd hm (hrole m)) (fun _ _ _ m hm => absurd hm (hrole m))
  · rw [hp] at hq
    cases hq
    exact hpp
  · rw [hp] at hm
    cases hm
  · simp [Actor.isMob, hp] at hm

theorem updatePlayer (h : Ledger w owed marked begun) {e : Entity} {f : Actor → PlayerComps → Option Actor}
    (hf : ∀ a p a', a.role = .player p → f a p = some a' →
      a'.netId = a.netId ∧ ∃ p', a'.role = .player p' ∧ p'.playerId = p.playerId)
    (hu : w.updatePlayer e f = some w') : Ledger w' owed marked begun := by
  rcases LifeWorld.updatePlayer_eq_some hu with rfl | ⟨a, p, a', ha, hp, hfa, rfl⟩
  · exact h
  · obtain ⟨hid, p', hp', hpp⟩ := hf a p a' hp hfa
    exact h.putPlayer ha hp hid hp' hpp

theorem restartPlayer (h : Ledger w owed marked begun) {e : Entity} {hp : LifeWorld.RestartHp}
    (hu : w.restartPlayer e hp = some w') : Ledger w' owed marked begun := by
  refine h.updatePlayer (fun a p a' hr hf => ?_) hu
  obtain ⟨stats, _, rfl⟩ := Option.map_eq_some_iff.1 hf
  exact ⟨rfl, p, hr, rfl⟩

theorem processRequestedRestart (h : Ledger w owed marked begun) {e : Entity}
    (hu : w.processRequestedRestart e = some w') : Ledger w' owed marked begun := by
  rcases LifeWorld.processRequestedRestart_eq_some hu with rfl | ⟨a, p, ha, hp, hw⟩
  · exact h
  · have h1 := h.putPlayer (z := { a with role := .player { p with restartIntents := [] } }) ha hp rfl rfl rfl
    rcases hw with rfl | ⟨_, hw⟩
    · exact h1
    · exact h1.restartPlayer hw

/-! ## Fights -/

theorem afterHit (h : Ledger w w.hpDepleted w.hpDepleted false) {attacker : ActorRef} {e : Entity} {v : Actor}
    {stats : ActorStatsRuntime} (hv : w.actors.get? e = some v) (hal : v.life = .alive) (hurt : Hurt v.stats stats) :
    let w' := w.afterHit attacker ⟨e, v.netId⟩ v stats
    Ledger w' w'.hpDepleted w'.hpDepleted false := by
  intro w'
  -- the depletions after the hit are those before it, and the victim if its HP was taken
  have hmem : ∀ d, d ∈ w'.hpDepleted ↔ d ∈ w.hpDepleted ∨
      ((0 < v.hp ∧ stats.state.resources.hp ≤ 0) ∧ d = ⟨⟨e, v.netId⟩, some attacker⟩) := by
    intro d
    by_cases hk : 0 < v.hp ∧ stats.state.resources.hp ≤ 0
    · simp [w', LifeWorld.afterHit, hk]
    · simp [w', LifeWorld.afterHit, hk]
  have hlog : chronicle e w'.log = if 0 < v.hp ∧ stats.state.resources.hp ≤ 0 then chronicle e w.log ++
    [Mark.slain attacker]
      else chronicle e w.log := chronicle_hit e w.log attacker v.hp stats.state.resources.hp
  -- a mob that is alive has no story yet, or has lost its HP in this frame
  have hstory : ∀ m, v.role = .mob m → m.claim = none ∧ ((0 < v.hp ∧ chronicle e w.log = []) ∨
      (v.hp ≤ 0 ∧ (∃ d ∈ w.hpDepleted, d.victim = ⟨e, v.netId⟩) ∧ ∃ k, chronicle e w.log = [.slain k])) := by
    intro m hm
    have hs := (h.mob e v m hv hm).2
    simpa only [MobStory, hal] using hs
  refine h.change (r := some (.hit attacker e v.hp stats.state.resources.hp)) (z := { v with stats }) hv
    ⟨rfl, fun {p} hp => ⟨p, hp, rfl⟩, fun {m} hm => ⟨m, hm⟩, fun _ hd => hd⟩ rfl (about_hit _ _ _ _)
    (fun d hd => .inl hd) (fun _ _ hr => by cases hr) (fun d hd _ => (hmem d).2 (.inl hd)) ?_ ?_ ?_
  · intro d hd hne
    rcases (hmem d).1 hd with hd | ⟨_, rfl⟩
    · exact hd
    · exact absurd rfl hne
  · intro m hm
    obtain ⟨hc, hst⟩ := hstory m hm
    show MobStory { v with stats } m.claim _ (chronicle e w'.log)
    rw [hlog]
    simp only [MobStory, hal]
    refine ⟨hc, ?_⟩
    rcases hst with ⟨hpos, hnil⟩ | ⟨hle, ⟨d, hd, hdv⟩, k, hk⟩
    · by_cases hdep : stats.state.resources.hp ≤ 0
      · rw [if_pos ⟨hpos, hdep⟩, hnil]
        exact .inr ⟨hdep, ⟨_, (hmem _).2 (.inr ⟨⟨hpos, hdep⟩, rfl⟩), rfl⟩, attacker, rfl⟩
      · rw [if_neg fun hk => hdep hk.2]
        exact .inl ⟨not_le.1 hdep, hnil⟩
    · rw [if_neg fun hk' => absurd hk'.1 (not_lt.2 hle)]
      exact .inr ⟨hurt.depleted hle, ⟨d, (hmem d).2 (.inl hd), hdv⟩, k, hk⟩
  · intro d hd (he : d.victim.entity = e) m hm
    show ∃ k, d.killer = some k ∧ (chronicle e w'.log = _ ∨ _)
    rcases (hmem d).1 hd with hd | ⟨hk, rfl⟩
    · -- an older depletion of this mob: its HP is gone already
      obtain ⟨k, hkk, hch⟩ := h.marks d hd v m (he ▸ hv) hm
      have hch : chronicle e w.log = [.slain k] := by
        rw [← he]
        exact hch.resolve_right fun hb => by cases hb.1
      rcases (hstory m hm).2 with ⟨_, hnil⟩ | ⟨hle, _⟩
      · rw [hnil] at hch
        cases hch
      · refine ⟨k, hkk, .inl ?_⟩
        rw [hlog, if_neg fun hk' => absurd hk'.1 (not_lt.2 hle)]
        exact hch
    · refine ⟨attacker, rfl, .inl ?_⟩
      rw [hlog, if_pos hk]
      rcases (hstory m hm).2 with ⟨_, hnil⟩ | ⟨hle, _⟩
      · rw [hnil]; rfl
      · exact absurd hk.1 (not_lt.2 hle)

/-! ## Death -/

/-- The end of the dying, as long as none of the marked depletions can have gone that far. -/
theorem bury (h : Ledger w owed marked begun) (hm : begun = false ∨ marked = []) {e : Entity} {a : Actor}
    (ha : w.actors.get? e = some a) (hdy : a.life.isDying) : Ledger (w.bury e a) owed marked begun := by
  obtain ⟨t, t', hl⟩ := isDying_eq hdy
  have hstory : ∀ m, a.role = .mob m → ∃ k, chronicle e w.log = [.slain k, .dying] ∧ ∀ k',
      m.claim = some k' → k' = k := by
    intro m hm
    have hs := (h.mob e a m ha hm).2
    simpa only [MobStory, hl] using hs
  have hlog : chronicle e (w.log ++ [LifeRecord.dead e]) = chronicle e w.log ++ [Mark.dead] := by
    simp [chronicle, LifeRecord.mark?]
  refine h.change (r := some (.dead e)) (z := { a with life := deathPhase w.simNow a }) ha
    ⟨rfl, fun {p} hp => ⟨p, hp, rfl⟩, fun {m} hm => ⟨m, hm⟩, fun _ _ => isDead_deathPhase _ _⟩ rfl ?_ ?_
    (fun _ _ hr => by cases hr) (fun d hd _ => hd) (fun d hd _ => hd) ?_ ?_
  · rintro _ ⟨⟩
    exact ⟨rfl, fun e' hne => by simp [LifeRecord.mark?, hne.symm]⟩
  · intro d hd
    rcases List.mem_append.1 hd with hd | hd
    · exact .inl hd
    · rw [List.mem_singleton.1 hd]
      exact .inr rfl
  · intro m hm
    obtain ⟨k, hk, hc⟩ := hstory m hm
    refine (MobStory.of_dead (isDead_deathPhase _ _)).2 ⟨k, .inl ⟨?_, hc⟩⟩
    show chronicle e (w.log ++ [LifeRecord.dead e]) = _
    rw [hlog, hk]
    rfl
  · intro d hd he m hmob
    exfalso
    rcases hm with rfl | rfl
    · obtain ⟨k, hk, _⟩ := hstory m hmob
      obtain ⟨_, _, hch | hch⟩ := h.marks d hd a m (he ▸ ha) hmob
      · rw [he, hk] at hch; cases hch
      · cases hch.1
    · cases hd

/-- The next depletion is paid off: its actor is dying, or was not alive any more. -/
theorem beginActorDying {d : ActorHpDepleted} (h : Ledger w (d :: owed) marked true) (hd : d ∈ marked) :
    Ledger (w.beginActorDying d.victim) owed marked true := by
  rcases LifeWorld.beginActorDying_cases w d.victim with ⟨heq, hno⟩ | ⟨a, t, t', ha, hid, hl, heq⟩
  · rw [heq]
    exact h.drop hno
  · rw [heq]
    -- a mob that is alive and has a mark has been slain and nothing since
    have hstory : ∀ m, a.role = .mob m → m.claim = none ∧ ∃ k, chronicle d.victim.entity w.log = [.slain k] := by
      intro m hm
      have hs := (h.mob _ a m ha hm).2
      simp only [MobStory, hl] at hs
      obtain ⟨k, _, hch⟩ := h.marks d hd a m ha hm
      refine ⟨hs.1, ?_⟩
      rcases hs.2 with ⟨_, hnil⟩ | ⟨_, _, k', hk'⟩
      · rw [hnil] at hch
        rcases hch with hch | ⟨_, hch⟩ <;> cases hch
      · exact ⟨k', hk'⟩
    have hlog : ∀ e, chronicle e (w.log ++ [LifeRecord.dying e]) = chronicle e w.log ++ [Mark.dying] := by
      intro e
      simp [chronicle, LifeRecord.mark?]
    refine h.change (r := some (.dying d.victim.entity)) (z := { a with life := .dying t t' }) ha
      ⟨rfl, fun {p} hp => ⟨p, hp, rfl⟩, fun {m} hm => ⟨m, hm⟩, fun _ hdead => by rw [hl] at hdead; cases hdead⟩ rfl ?_
      (fun d hd => .inl hd) (fun _ _ hr => by cases hr) ?_ (fun d hd _ => hd) ?_ ?_
    · rintro _ ⟨⟩
      exact ⟨rfl, fun e' hne => by simp [LifeRecord.mark?, hne.symm]⟩
    · intro d' hd' hne
      rcases List.mem_cons.1 hd' with rfl | hd'
      · exact absurd rfl hne
      · exact hd'
    · intro m hm
      obtain ⟨hc, k, hk⟩ := hstory m hm
      refine ⟨k, ?_, fun k' hk' => by rw [hc] at hk'; cases hk'⟩
      show chronicle _ (w.log ++ [LifeRecord.dying d.victim.entity]) = _
      rw [hlog, hk]
      rfl
    · intro d' hd' he m hm
      obtain ⟨_, k, hk⟩ := hstory m hm
      obtain ⟨k', hk', hch⟩ := h.marks d' hd' a m (he ▸ ha) hm
      refine ⟨k', hk', .inr ⟨rfl, ?_⟩⟩
      show chronicle _ (w.log ++ [LifeRecord.dying d.victim.entity]) = _
      rw [hlog]
      rcases hch with hch | ⟨_, hch⟩
      · rw [← he, hch]; rfl
      · rw [he, hk] at hch; cases hch

/-! ## Rewards -/

/-- A claim follows a mark, so it names the killer. -/
theorem recordMobDeathRewardClaim (cfg : LifeConfig) {d : ActorHpDepleted} (h : Ledger w [] marked true)
    (hd : d ∈ marked) :
    Ledger (w.recordMobDeathRewardClaim cfg d) [] marked true := by
  rcases LifeWorld.recordMobDeathRewardClaim_cases cfg w d with heq | ⟨killer, v, m, hk, hv, hm, heq⟩
  · rw [heq]
    exact h
  · rw [heq]
    obtain ⟨k, hkk, hch⟩ := h.marks d hd v m hv hm
    cases hk.symm.trans hkk
    have hs := (h.mob _ v m hv hm).2
    refine h.change (r := none) (z := { v with role := .mob { m with claim := some killer } }) hv
      ⟨rfl, fun {p} hp => (by rw [hm] at hp; cases hp), fun {m} hm => ⟨_, rfl⟩, fun _ hd => hd⟩ (by simp)
      (fun _ hx => by cases hx) (fun d hd => .inl hd) (fun _ _ hr => by cases hr) (fun d hd _ => hd)
        (fun d hd _ => hd) ?_ ?_
    · rintro _ ⟨⟩
      -- nobody is owed any more, so a mob with a mark is dying
      cases hl : v.life with
      | alive =>
        simp only [MobStory, hl] at hs
        rcases hs.2 with ⟨_, hnil⟩ | ⟨_, ⟨_, hx, _⟩, _⟩
        · rw [hnil] at hch
          rcases hch with hch | ⟨_, hch⟩ <;> cases hch
        · cases hx
      | dying t t' =>
        simp only [MobStory, hl] at hs ⊢
        obtain ⟨k', hk', _⟩ := hs
        rw [hk'] at hch
        rcases hch with hch | ⟨_, hch⟩
        · cases hch
        · cases hch
          exact ⟨_, hk', fun _ hc => (Option.some.inj hc).symm⟩
      | dead _ _ _ _ _ =>
        simp only [MobStory, hl] at hs
        obtain ⟨k', ⟨hk', _⟩ | ⟨hk', _⟩⟩ := hs
        all_goals
          rw [hk'] at hch
          rcases hch with hch | ⟨_, hch⟩ <;> cases hch
    · intro d' hd' he m' _
      obtain ⟨k', hk', hch'⟩ := h.marks d' hd' v m (he ▸ hv) hm
      exact ⟨k', hk', by rw [← he]; exact hch'⟩

/-- A claim on a mob whose death was finalized in this frame is owed to the one that slew it. -/
theorem story_of_claim (h : Ledger w [] [] begun) {d : ActorRef} (hd : d ∈ w.deathFinalized) {v : Actor} {m : MobComps}
    {killer : ActorRef} (hv : w.actors.get? d.entity = some v) (hm : v.role = .mob m) (hc : m.claim = some killer) :
    v.life.isDead ∧ chronicle d.entity w.log = [.slain killer, .dying, .dead] := by
  obtain ⟨b, c, hlog, _⟩ := h.finalized d hd
  have hdead : Mark.dead ∈ chronicle d.entity w.log := mem_chronicle_dead (by rw [hlog]; simp)
  have hs := (h.mob _ v m hv hm).2
  unfold MobStory at hs
  split at hs
  · rw [hc] at hs
    cases hs.1
  · obtain ⟨k, hk, _⟩ := hs
    rw [hk] at hdead
    simp at hdead
  · rename_i hl
    obtain ⟨k, ⟨hk, hkk⟩ | ⟨_, hn⟩⟩ := hs
    · cases hkk killer hc
      exact ⟨by rw [hl]; rfl, hk⟩
    · rw [hc] at hn
      cases hn

/-- The player of a claim is on the map, and was when the death was finalized: nobody came or went since. -/
theorem credited (h : Ledger w [] [] begun) {d : ActorRef} (hd : d ∈ w.deathFinalized) {v k : Actor} {m : MobComps}
    {p : PlayerComps} {killer : ActorRef} (hv : w.actors.get? d.entity = some v) (hm : v.role = .mob m)
    (hc : m.claim = some killer) (hk : w.actors.get? killer.entity = some k) (hp : k.role = .player p)
    (hid : k.netId = killer.id) : Credited d.entity killer w.log := by
  obtain ⟨hdead, hstory⟩ := h.story_of_claim hd hv hm hc
  have hon : OnMap killer w.log := by
    have := (h.player _ k p hk hp).1
    rwa [hid] at this
  obtain ⟨a, b, hlog, hq⟩ := h.finalized d hd
  refine ⟨(h.mob _ v m hv hm).1, hstory, ⟨a, b, hlog, ?_, fun hl => hon.2 (by rw [hlog]; simp [hl])⟩, hon⟩
  have hent := hon.1
  rw [hlog, List.mem_append, List.mem_cons] at hent
  rcases hent with hent | hent | hent
  · exact hent
  · cases hent
  · cases hq _ hent

theorem grantMobDeathReward [GrowthRng] {cfg : LifeConfig} (h : Ledger w [] [] begun) {d : ActorRef}
    (hd : d ∈ w.deathFinalized) (hg : w.grantMobDeathReward cfg d = some w') : Ledger w' [] [] begun := by
  rcases LifeWorld.grantMobDeathReward_eq_some hg with rfl | ⟨v, m, killer, hv, hm, hc, hw⟩
  · exact h
  · have hfol : v.Follows { v with role := .mob { m with claim := none } } :=
      ⟨rfl, fun {p} hp => (by rw [hm] at hp; cases hp), fun _ => ⟨_, rfl⟩, fun _ hd => hd⟩
    rcases hw with rfl | ⟨k, p, reward, r, q, hk, hp, hid, _, _, rfl⟩
    · refine h.change (r := none) hv hfol (by simp) (fun _ hx => by cases hx) (fun d hd => .inl hd)
        (fun _ _ hr => by cases hr)
        (fun d hd _ => hd) (fun d hd _ => hd) ?_ (fun d hd => by cases hd)
      rintro _ ⟨⟩
      exact (h.mob _ v m hv hm).2.dropClaim
    · have hcr := h.credited hd hv hm hc hk hp hid
      have hne : d.entity ≠ killer.entity := by
        intro he
        rw [he, hk] at hv
        cases hv
        rw [hm] at hp
        cases hp
      have h1 := h.putPlayer (z := k.withLive p q) hk hp rfl rfl rfl
      have hv1 : (w.put killer.entity (k.withLive p q)).actors.get? d.entity = some v := by
        rw [LifeWorld.put, OrdMap.get?_insert, if_neg hne]
        exact hv
      obtain ⟨hdead, hstory⟩ := h.story_of_claim hd hv hm hc
      -- the award is recorded, unless there was nothing to give
      have hrec : ∀ r : Option LifeRecord, r = none ∨ r = some (.awarded d.entity killer) → ∀ log',
        log' = w.log ++ r.toList →
          Ledger { (w.put killer.entity (k.withLive p q)).put d.entity
            { v with role := .mob { m with claim := none } } with
            log := log' } [] [] begun := by
        intro r hr log' hlog'
        refine h1.change (r := r) hv1 hfol hlog' ?_ (fun d hd => .inl hd) ?_ (fun d hd _ => hd) (fun d hd _ => hd) ?_
          (fun d hd => by cases hd)
        · rcases hr with rfl | rfl
          · rintro _ ⟨⟩
          · rintro _ ⟨⟩
            exact ⟨rfl, fun e' hne' => by simp [LifeRecord.mark?, hne'.symm]⟩
        · intro m' p' hr'
          rcases hr with rfl | rfl
          · cases hr'
          · cases hr'
            exact hcr
        · rintro _ ⟨⟩
          refine (MobStory.of_dead hdead).2 ⟨killer, ?_⟩
          rcases hr with rfl | rfl
          · rw [hlog']
            exact .inl ⟨by simpa using hstory, by rintro _ ⟨⟩⟩
          · refine .inr ⟨?_, rfl⟩
            rw [hlog', chronicle_append, hstory]
            simp [chronicle, LifeRecord.mark?]
      cases r with
      | error _ => exact hrec (some _) (.inr rfl) _ rfl
      | ok o =>
        cases o with
        | none => exact hrec none (.inl rfl) _ (by simp)
        | some _ => exact hrec (some _) (.inr rfl) _ rfl

/-! ## Coming and going -/

/-- A corpse that is due is a dead mob, so its story can be closed. -/
theorem destroyMobEntity (h : Ledger w [] [] begun) {d : ActorRef} (hd : d ∈ w.cleanupDue) :
    Ledger (w.destroyMobEntity d) [] [] begun := by
  unfold LifeWorld.destroyMobEntity
  split
  · rename_i hs
    obtain ⟨v, hv⟩ := Option.isSome_iff_exists.1 hs
    obtain ⟨hmob, hdead⟩ := h.due d hd v hv
    obtain ⟨m, hm⟩ : ∃ m, v.role = .mob m := by
      cases hr : v.role with
      | mob m => exact ⟨m, rfl⟩
      | player p => simp [Actor.isMob, hr] at hmob
    have hmem : ∀ x : LifeRecord, x.isTraffic = true → (x ∈ w.log ++ [LifeRecord.despawned d.entity] ↔ x ∈ w.log) := by
      intro x hx
      rw [List.mem_append, List.mem_singleton]
      refine ⟨fun hx' => hx'.resolve_right ?_, .inl⟩
      rintro rfl
      cases hx
    have hother : ∀ e, e ≠ d.entity → chronicle e (w.log ++ [LifeRecord.despawned d.entity]) = chronicle e w.log := by
      intro e hne
      simp [chronicle, LifeRecord.mark?, hne.symm]
    have hself : chronicle d.entity (w.log ++ [LifeRecord.despawned d.entity]) =
        chronicle d.entity w.log ++ [Mark.despawned] := by
      simp [chronicle, LifeRecord.mark?]
    have hget : ∀ {e : Entity} {a : Actor}, (w.actors.erase d.entity).get? e = some a →
        e ≠ d.entity ∧ w.actors.get? e = some a := OrdMap.get?_erase_eq_some_iff.1
    refine ⟨?_, ?_, ?_, ?_, ?_, ?_, ?_, ?_, ?_, ?_⟩
    all_goals simp only [LifeWorld.record]
    · exact fun e a ha => h.below e a (hget ha).2
    · intro e he
      have hne : e ≠ d.entity := by rintro rfl; exact absurd (h.below _ _ hv) (not_lt.2 he)
      obtain ⟨h1, h2, h3⟩ := h.fresh e he
      exact ⟨(hother e hne).trans h1, by rw [hmem _ rfl]; exact h2, fun n => by rw [hmem _ rfl]; exact h3 n⟩
    · intro pid e hpid
      obtain ⟨a, p, ha, hp, hpp⟩ := h.index pid e hpid
      have hne : e ≠ d.entity := by
        rintro rfl
        rw [hv] at ha
        cases ha
        rw [hm] at hp
        cases hp
      exact ⟨a, p, OrdMap.get?_erase_eq_some_iff.2 ⟨hne, ha⟩, hp, hpp⟩
    · intro e a p ha hp
      unfold OnMap
      rw [hmem _ rfl, hmem _ rfl, hmem _ rfl]
      exact h.player e a p (hget ha).2 hp
    · intro e a m ha hm
      rw [hmem _ rfl, hother e (hget ha).1]
      exact h.mob e a m (hget ha).2 hm
    · intro e hs hnone
      rw [hmem _ rfl] at hs
      by_cases he : e = d.entity
      · subst he
        obtain ⟨k, ⟨hk, _⟩ | ⟨hk, _⟩⟩ := (MobStory.of_dead hdead).1 (h.mob _ v m hv hm).2
        · exact ⟨k, .inl (by rw [hself, hk]; rfl)⟩
        · exact ⟨k, .inr (by rw [hself, hk]; rfl)⟩
      · rw [OrdMap.get?_erase, if_neg he] at hnone
        rw [hother e he]
        exact h.gone e hs hnone
    · exact fun _ hd => by cases hd
    · intro d' hd'
      obtain ⟨b, c, hlog, hq⟩ := h.finalized d' hd'
      refine ⟨b, c ++ [LifeRecord.despawned d.entity], by rw [hlog]; simp, fun x hx => ?_⟩
      rcases List.mem_append.1 hx with hx | hx
      · exact hq x hx
      · rw [List.mem_singleton.1 hx]; rfl
    · exact fun d' hd' a ha => h.due d' hd' a (hget ha).2
    · intro b c m' p hlog
      rcases split_append_toList (r := some (.despawned d.entity)) hlog with ⟨_, hr⟩ | ⟨c', hc⟩
      · cases hr
      · exact h.credit b c' m' p hc
  · exact h

end Ledger

/-! ## Frames -/

/-- Between frames no fact is left. -/
structure Calm (w : LifeWorld) : Prop extends Ledger w [] [] false where
  noDepletion : w.hpDepleted = []
  noDeath : w.deathFinalized = []
  noCleanup : w.cleanupDue = []

namespace Calm

variable {w w' : LifeWorld}

/-- A record of traffic is no mark and, with no death finalized, nothing that the rest of the history depends on. -/
theorem arrive (h : Calm w) {a : Actor} {r : LifeRecord} {index' : OrdMap PlayerId Entity} (hr : r.isTraffic = true)
    (hleft : ∀ p, r ≠ .left p)
    (hspawn : ∀ e, r = .spawned e → e = ⟨w.nextEntity⟩ ∧ a.life = .alive ∧ 0 < a.hp ∧ ∃ m, a.role = .mob m ∧
      m.claim = none)
    (hrole : ∀ m, a.role = .mob m → r = .spawned ⟨w.nextEntity⟩)
    (hplayer : ∀ p, a.role = .player p → r = .entered ⟨⟨w.nextEntity⟩, a.netId⟩)
    (hindex : ∀ pid e, index'.get? pid = some e → w.playerIndex.get? pid = some e ∨
      (e = ⟨w.nextEntity⟩ ∧ ∃ p, a.role = .player p ∧ p.playerId = pid)) :
    Calm { w with
      nextEntity := w.nextEntity + 1
      actors := w.actors.insert ⟨w.nextEntity⟩ a
      playerIndex := index'
      log := w.log ++ [r] } := by
  obtain ⟨hfresh1, hfresh2, hfresh3⟩ := h.fresh ⟨w.nextEntity⟩ le_rfl
  have hnone : w.actors.get? ⟨w.nextEntity⟩ = none := by
    cases hc : w.actors.get? ⟨w.nextEntity⟩ with
    | none => rfl
    | some x => exact absurd (h.below _ _ hc) (lt_irrefl _)
  have hch : ∀ e, chronicle e (w.log ++ [r]) = chronicle e w.log := fun e => chronicle_traffic e w.log hr
  -- the new record tells of no departure, and of no other spawn than this one
  have hlog_left : ∀ {d}, LifeRecord.left d ∈ w.log ++ [r] → LifeRecord.left d ∈ w.log := by
    intro d hl
    rcases List.mem_append.1 hl with hl | hl
    · exact hl
    · exact absurd (List.mem_singleton.1 hl).symm (hleft d)
  have hlog_spawned : ∀ {e}, LifeRecord.spawned e ∈ w.log ++ [r] → LifeRecord.spawned e ∈ w.log ∨
      e = ⟨w.nextEntity⟩ := by
    intro e hs
    rcases List.mem_append.1 hs with hs | hs
    · exact .inl hs
    · exact .inr (hspawn e (List.mem_singleton.1 hs).symm).1
  refine ⟨⟨?_, ?_, ?_, ?_, ?_, ?_, ?_, ?_, ?_, ?_⟩, h.noDepletion, h.noDeath, h.noCleanup⟩
  all_goals simp only [OrdMap.get?_insert, hch]
  · intro e x hx
    split at hx
    · rename_i he; rw [he]; exact Nat.lt_succ_self _
    · exact Nat.lt_succ_of_lt (h.below e x hx)
  · intro e he
    obtain ⟨h1, h2, h3⟩ := h.fresh e (Nat.le_of_succ_le he)
    have hne : e ≠ ⟨w.nextEntity⟩ := by rintro rfl; exact absurd he (Nat.not_succ_le_self _)
    refine ⟨h1, fun hs => ?_, fun n hl => h3 n (hlog_left hl)⟩
    rcases hlog_spawned hs with hs | hs
    · exact h2 hs
    · exact hne hs
  · intro pid e hpid
    rcases hindex pid e hpid with hpid | ⟨rfl, p, hp, hpp⟩
    · obtain ⟨x, p, hx, hp, hpp⟩ := h.index pid e hpid
      refine ⟨x, p, ?_, hp, hpp⟩
      rw [if_neg]
      · exact hx
      · rintro rfl
        rw [hnone] at hx
        cases hx
    · exact ⟨a, p, if_pos rfl, hp, hpp⟩
  · intro e x p hx hp
    unfold OnMap
    split at hx
    · rename_i he
      cases hx
      subst he
      have hrp := hplayer p hp
      subst hrp
      simp [hfresh2, hfresh3]
    · obtain ⟨⟨hent, hnl⟩, hns⟩ := h.player e x p hx hp
      rename_i he
      refine ⟨⟨by simp [hent], fun hl => hnl (hlog_left hl)⟩, fun hs => ?_⟩
      rcases hlog_spawned hs with hs | hs
      · exact hns hs
      · exact he hs
  · intro e x m hx hm
    split at hx
    · rename_i he
      cases hx
      subst he
      have hrs := hrole m hm
      obtain ⟨_, hl, hhp, m', hm', hc⟩ := hspawn _ hrs
      rw [hm] at hm'
      cases hm'
      refine ⟨by simp [hrs], ?_⟩
      simp only [MobStory, hl]
      exact ⟨hc, .inl ⟨hhp, hfresh1⟩⟩
    · exact ⟨List.mem_append_left _ (h.mob e x m hx hm).1, (h.mob e x m hx hm).2⟩
  · intro e hs hx
    split at hx
    · cases hx
    · rename_i he
      rcases hlog_spawned hs with hs | hs
      · exact h.gone e hs hx
      · exact absurd hs he
  · exact fun _ hd => by cases hd
  · intro d hd
    rw [h.noDeath] at hd
    cases hd
  · intro d hd
    rw [h.noCleanup] at hd
    cases hd
  · intro b c m p hlog
    rcases split_append_toList (r := some r) hlog with ⟨_, hr'⟩ | ⟨c', hc⟩
    · cases hr'
      cases hr
    · exact h.credit b c' m p hc

/-- A player that goes leaves its record and no entry in the index. -/
theorem depart (h : Calm w) {e : Entity} {a : Actor} {p : PlayerComps} (ha : w.actors.get? e = some a)
    (hp : a.role = .player p) :
    Calm ({ w with actors := w.actors.erase e, playerIndex := w.playerIndex.erase p.playerId }.record
      (.left ⟨e, a.netId⟩)) := by
  have hch : ∀ e', chronicle e' (w.log ++ [LifeRecord.left ⟨e, a.netId⟩]) = chronicle e' w.log :=
    fun e' => chronicle_traffic e' w.log rfl
  have hspawn : ∀ e', LifeRecord.spawned e' ∈ w.log ++ [LifeRecord.left ⟨e, a.netId⟩] ↔ .spawned e' ∈ w.log := by
    intro e'
    simp
  have hget : ∀ {e' : Entity} {x : Actor}, (w.actors.erase e).get? e' = some x → e' ≠ e ∧ w.actors.get? e' = some x :=
    OrdMap.get?_erase_eq_some_iff.1
  refine ⟨⟨?_, ?_, ?_, ?_, ?_, ?_, ?_, ?_, ?_, ?_⟩, h.noDepletion, h.noDeath, h.noCleanup⟩
  all_goals simp only [LifeWorld.record, hch, hspawn]
  · exact fun e' x hx => h.below e' x (hget hx).2
  · intro e' he'
    obtain ⟨h1, h2, h3⟩ := h.fresh e' he'
    refine ⟨h1, h2, fun n hl => ?_⟩
    rcases List.mem_append.1 hl with hl | hl
    · exact h3 n hl
    · cases List.mem_singleton.1 hl
      exact absurd (h.below _ _ ha) (not_lt.2 he')
  · intro pid e' hpid
    obtain ⟨hne, hpid⟩ := OrdMap.get?_erase_eq_some_iff.1 hpid
    obtain ⟨x, q, hx, hq, hqq⟩ := h.index pid e' hpid
    refine ⟨x, q, OrdMap.get?_erase_eq_some_iff.2 ⟨?_, hx⟩, hq, hqq⟩
    rintro rfl
    rw [ha] at hx
    cases hx
    rw [hp] at hq
    cases hq
    exact hne hqq.symm
  · intro e' x q hx hq
    obtain ⟨⟨hent, hnl⟩, hns⟩ := h.player e' x q (hget hx).2 hq
    refine ⟨⟨by simp [hent], fun hl => ?_⟩, hns⟩
    rcases List.mem_append.1 hl with hl | hl
    · exact hnl hl
    · have he := List.mem_singleton.1 hl
      simp only [LifeRecord.left.injEq, ActorRef.mk.injEq] at he
      exact (hget hx).1 he.1
  · exact fun e' x m hx hm => h.mob e' x m (hget hx).2 hm
  · intro e' hs hx
    refine h.gone e' hs ?_
    rw [OrdMap.get?_erase] at hx
    split at hx
    · rename_i he
      subst he
      exact absurd hs (h.player _ a p ha hp).2
    · exact hx
  · exact fun _ hd => by cases hd
  · intro d hd
    rw [h.noDeath] at hd
    cases hd
  · intro d hd
    rw [h.noCleanup] at hd
    cases hd
  · intro b c m q hlog
    rcases split_append_toList (r := some (.left ⟨e, a.netId⟩)) hlog with ⟨_, hr⟩ | ⟨c', hc⟩
    · cases hr
    · exact h.credit b c' m q hc

theorem despawnIndexed (h : Calm w) {pid : PlayerId} {e : Entity} (hi : w.playerIndex.get? pid = some e) :
    Calm (w.despawn e) := by
  obtain ⟨a, p, ha, hp, _⟩ := h.index pid e hi
  rcases LifeWorld.despawn_cases w e with ⟨_, hnone⟩ | ⟨a', m, ha', hm, _⟩ | ⟨a', p', ha', hp', heq⟩
  · rw [ha] at hnone
    cases hnone
  · cases ha.symm.trans ha'
    rw [hp] at hm
    cases hm
  · rw [heq]
    exact h.depart ha' hp'

theorem addPlayer (h : Calm w) {pid : PlayerId} {a : Actor} {p : PlayerComps} (hp : a.role = .player p)
    (hpid : p.playerId = pid) : Calm (w.addPlayer pid a) := by
  refine h.arrive rfl (fun _ => by simp) (fun _ he => by cases he) (fun m hm => ?_) (fun _ _ => rfl)
    (fun pid' e he => ?_)
  · rw [hp] at hm
    cases hm
  · change (w.playerIndex.insert pid ⟨w.nextEntity⟩).get? pid' = some e at he
    rw [OrdMap.get?_insert] at he
    split at he
    · rename_i hpp
      cases he
      exact .inr ⟨rfl, p, hp, hpid.trans hpp.symm⟩
    · exact .inl he

end Calm

/-- What holds at each stage: the depletions of the frame are owed a dying until the life events are through, and marks
until the claims are recorded. -/
def Kept (w : LifeWorld) : Prop :=
  match w.stage with
  | .startup | .inbound | .sense | .progressing | .normalizing _ | .acting | .flushing _ => Calm w
  | .attacking _ => Ledger w w.hpDepleted w.hpDepleted false
  | .dying rest => Ledger w rest w.hpDepleted true ∧ rest ⊆ w.hpDepleted
  | .claiming rest => Ledger w [] w.hpDepleted true ∧ rest ⊆ w.hpDepleted
  | .aging _ | .restarting _ | .respawning _ | .lifecycleEnd | .regenerating _ => Ledger w [] [] true
  | .granting rest => Ledger w [] [] true ∧ rest ⊆ w.deathFinalized
  | .cleaning rest => Ledger w [] [] true ∧ rest ⊆ w.cleanupDue

/-- A stage is not part of what the ledger says. -/
theorem Ledger.at {w : LifeWorld} {owed marked : List ActorHpDepleted} {begun : Bool} (h : Ledger w owed marked begun)
    (s : Stage) : Ledger { w with stage := s } owed marked begun := ⟨h.1, h.2, h.3, h.4, h.5, h.6, h.7, h.8, h.9, h.10⟩

theorem Calm.at {w : LifeWorld} (h : Calm w) (s : Stage) : Calm { w with stage := s } :=
  ⟨h.toLedger.at s, h.2, h.3, h.4⟩

/-- The stages at which no fact of the frame is pending. -/
def Stage.calm : Stage → Bool
  | .startup | .inbound | .sense | .progressing | .normalizing _ | .acting | .flushing _ => true
  | _ => false

theorem kept_iff_calm {w : LifeWorld} (hs : w.stage.calm) : Kept w ↔ Calm w := by
  unfold Kept
  cases hst : w.stage <;> first | exact Iff.rfl | (rw [hst] at hs; cases hs)

/-- What keeps the calm and the stage keeps the invariant. -/
theorem Kept.carry {w w' : LifeWorld} (h : Kept w) (hs : w.stage.calm) (hc : Calm w → Calm w' ∧ w'.stage = w.stage) :
    Kept w' := by
  obtain ⟨hcalm, hstage⟩ := hc ((kept_iff_calm hs).1 h)
  exact (kept_iff_calm (by rw [hstage]; exact hs)).2 hcalm

namespace Calm

variable {w w' : LifeWorld}

theorem updatePlayer (h : Calm w) {e : Entity} {f : Actor → PlayerComps → Option Actor}
    (hf : ∀ a p a', a.role = .player p → f a p = some a' →
      a'.netId = a.netId ∧ ∃ p', a'.role = .player p' ∧ p'.playerId = p.playerId)
    (hu : w.updatePlayer e f = some w') : Calm w' ∧ w'.stage = w.stage := by
  have hl := h.toLedger.updatePlayer hf hu
  rcases LifeWorld.updatePlayer_eq_some hu with rfl | ⟨_, _, _, _, _, _, rfl⟩
  · exact ⟨h, rfl⟩
  · exact ⟨⟨hl, h.noDepletion, h.noDeath, h.noCleanup⟩, rfl⟩

end Calm

/-! ## Steps -/

section
variable [GrowthRng] {cfg : LifeConfig} {w w' : LifeWorld}

omit [GrowthRng] in
theorem Calm.schedule (h : Calm w) (command : AttackCommand) (schedule : AttackDamageSchedule) :
    Calm (w.scheduleAttackDamage command schedule) ∧ (w.scheduleAttackDamage command schedule).stage = w.stage := by
  cases schedule with
  | immediate => exact ⟨⟨h.toLedger.frame rfl rfl rfl rfl (fun _ hd => hd) (fun _ hd => .inl hd), h.2, h.3, h.4⟩, rfl⟩
  | delayed delay =>
    exact ⟨⟨h.toLedger.frame rfl rfl rfl rfl (fun _ hd => hd) (fun _ hd => .inl hd), h.2, h.3, h.4⟩, rfl⟩
  | projectile delay flight =>
    exact ⟨⟨h.toLedger.frame rfl rfl rfl rfl (fun _ hd => hd) (fun _ hd => .inl hd), h.2, h.3, h.4⟩, rfl⟩

omit [GrowthRng] in
/-- The release only moves commands between the two buffers. -/
theorem Calm.release (h : Calm w) (travel : AttackCommand → FlyTiming → Nat) :
    Calm (w.releaseDueAttackCommands travel) := by
  unfold LifeWorld.releaseDueAttackCommands
  simp only
  have hbuffers : ∀ {v : LifeWorld} (cs : List AttackCommand) (ds : List DelayedAttackCommand), Calm v →
      Calm { v with attackCommands := cs, delayed := ds } := by
    intro v cs ds hv
    exact ⟨hv.toLedger.frame rfl rfl rfl rfl (fun _ hd => hd) (fun _ hd => .inl hd), hv.2, hv.3, hv.4⟩
  refine List.foldlRecOn (motive := Calm) _ _ (hbuffers w.attackCommands _ h) fun v hv scheduled _ => ?_
  have hlive : ∀ c, Calm (v.enqueueLiveAttackCommand c) := by
    intro c
    unfold LifeWorld.enqueueLiveAttackCommand
    split
    · exact hbuffers (v.attackCommands ++ [c]) v.delayed hv
    · exact hv
  unfold LifeWorld.releaseAttackCommand
  split
  · exact hlive _
  · split
    · simp only
      split
      · exact hlive _
      · exact hbuffers v.attackCommands _ hv
    · exact hv

theorem Kept.next (h : Kept w) (hs : w.next cfg = some w') : Kept w' := by
  unfold LifeWorld.next at hs
  unfold Kept at h
  cases hst : w.stage with
  | startup => simp only [hst] at h hs; cases hs; exact h.at _
  | inbound => simp only [hst] at hs; cases hs
  | sense => simp only [hst] at h hs; cases hs; exact h.at _
  | progressing => simp only [hst] at h hs; cases hs; exact h.at _
  | normalizing rest =>
    cases rest with
    | nil => simp only [hst] at h hs; cases hs; exact h.at _
    | cons e es =>
      simp only [hst] at h hs
      obtain ⟨hc, hstage⟩ := (h.at (.normalizing es)).updatePlayer (fun a p a' _ hf => by
        obtain ⟨_, _, rfl⟩ := Option.map_eq_some_iff.1 hf
        exact ⟨rfl, _, rfl, rfl⟩) hs
      exact (kept_iff_calm (by rw [hstage]; rfl)).2 hc
  | acting => simp only [hst] at hs; cases hs
  | attacking rest =>
    cases rest with
    | nil =>
      simp only [hst] at h hs
      cases hs
      exact ⟨(h.at _).weaken (fun _ hd => hd) (fun _ hd => hd) nofun, fun _ hd => hd⟩
    | cons c cs => simp only [hst] at hs; cases hs
  | dying rest =>
    cases rest with
    | nil =>
      simp only [hst] at h hs
      cases hs
      exact ⟨h.1.at _, fun _ hd => hd⟩
    | cons d ds =>
      simp only [hst] at h hs
      cases hs
      obtain ⟨hmem, hsub⟩ := List.cons_subset.1 h.2
      have hl := (h.1.at (.dying ds)).beginActorDying hmem
      unfold Kept
      rcases LifeWorld.beginActorDying_cases { w with stage := .dying ds } d.victim
        with ⟨heq, _⟩ | ⟨_, _, _, _, _, _, heq⟩
      · rw [heq] at hl ⊢; exact ⟨hl, hsub⟩
      · rw [heq] at hl ⊢; exact ⟨hl, hsub⟩
  | claiming rest =>
    cases rest with
    | nil => simp only [hst] at hs; cases hs
    | cons d ds =>
      simp only [hst] at h hs
      cases hs
      obtain ⟨hmem, hsub⟩ := List.cons_subset.1 h.2
      have hl := (h.1.at (.claiming ds)).recordMobDeathRewardClaim cfg hmem
      unfold Kept
      rcases LifeWorld.recordMobDeathRewardClaim_cases cfg { w with stage := .claiming ds } d
        with heq | ⟨_, _, _, _, _, _, heq⟩
      · rw [heq] at hl ⊢; exact ⟨hl, hsub⟩
      · rw [heq] at hl ⊢; exact ⟨hl, hsub⟩
  | aging rest =>
    cases rest with
    | nil => simp only [hst] at h hs; cases hs; exact h.at _
    | cons e es =>
      simp only [hst] at h hs
      cases hs
      have hl := h.at (.aging es)
      unfold Kept
      rcases LifeWorld.ageActor_cases { w with stage := .aging es } e
        with heq | ⟨a, ha, hdy, heq⟩ | ⟨a, ha, hm, hd, heq⟩
      · rw [heq]; exact hl
      · rw [heq]; exact hl.bury (.inr rfl) ha hdy
      · rw [heq]
        refine hl.frame rfl rfl rfl rfl (fun _ hd => hd) fun d hdm => ?_
        rcases List.mem_append.1 hdm with hdm | hdm
        · exact .inl hdm
        · cases List.mem_singleton.1 hdm
          refine .inr fun x hx => ?_
          cases ha.symm.trans hx
          exact ⟨hm, hd⟩
  | restarting rest =>
    cases rest with
    | nil => simp only [hst] at h hs; cases hs; exact h.at _
    | cons e es =>
      simp only [hst] at h hs
      have hl := (h.at (.restarting es)).processRequestedRestart hs
      unfold Kept
      rw [LifeWorld.processRequestedRestart_stage hs]
      exact hl
  | respawning rest =>
    cases rest with
    | nil => simp only [hst] at h hs; cases hs; exact ⟨h.at _, fun _ hd => hd⟩
    | cons e es =>
      simp only [hst] at h hs
      have hl := (h.at (.respawning es)).restartPlayer hs
      unfold Kept
      rw [LifeWorld.updatePlayer_stage hs]
      exact hl
  | granting rest =>
    cases rest with
    | nil => simp only [hst] at h hs; cases hs; exact ⟨h.1.at _, fun _ hd => hd⟩
    | cons d ds =>
      simp only [hst] at h hs
      obtain ⟨hmem, hsub⟩ := List.cons_subset.1 h.2
      have hl := (h.1.at (.granting ds)).grantMobDeathReward hmem hs
      rcases LifeWorld.grantMobDeathReward_eq_some hs
        with rfl | ⟨v, m, killer, _, _, _, rfl | ⟨_, _, _, _, _, _, _, _, _, _, rfl⟩⟩
      · exact ⟨hl, hsub⟩
      · exact ⟨hl, hsub⟩
      · exact ⟨hl, hsub⟩
  | cleaning rest =>
    cases rest with
    | nil => simp only [hst] at h hs; cases hs; exact h.1.at _
    | cons d ds =>
      simp only [hst] at h hs
      cases hs
      obtain ⟨hmem, hsub⟩ := List.cons_subset.1 h.2
      have hl := (h.1.at (.cleaning ds)).destroyMobEntity hmem
      unfold LifeWorld.destroyMobEntity at hl ⊢
      split at hl
      · rename_i hc; rw [if_pos hc]; exact ⟨hl, hsub⟩
      · rename_i hc; rw [if_neg hc]; exact ⟨hl, hsub⟩
  | lifecycleEnd => simp only [hst] at h hs; cases hs; exact h.at _
  | regenerating rest =>
    cases rest with
    | nil =>
      simp only [hst] at h hs
      cases hs
      have hl : Ledger w.resetFrameFacts [] [] true :=
        h.frame rfl rfl rfl rfl (fun _ hd => by cases hd) (fun _ hd => by cases hd)
      exact ⟨hl.unmarked.at _, rfl, rfl, rfl⟩
    | cons e es => simp only [hst] at hs; cases hs
  | flushing rest =>
    cases rest with
    | nil => simp only [hst] at h hs; cases hs; exact h.at _
    | cons e es =>
      simp only [hst] at h hs
      obtain ⟨hc, hstage⟩ := (h.at (.flushing es)).updatePlayer (fun a p a' _ hf => by
        obtain ⟨_, _, rfl⟩ := Option.map_eq_some_iff.1 hf
        exact ⟨rfl, _, rfl, rfl⟩) hs
      exact (kept_iff_calm (by rw [hstage]; rfl)).2 hc

theorem Calm.spawnOneMob {mobId : MobId} {netId : EntityId} (h : Calm w)
    (hs : w.spawnOneMob cfg mobId netId = some w') :
    Calm w' ∧ w'.stage = w.stage := by
  unfold LifeWorld.spawnOneMob at hs
  split at hs
  · cases hs; exact ⟨h, rfl⟩
  · obtain ⟨stats, hstats, rfl⟩ := Option.map_eq_some_iff.1 hs
    refine ⟨h.arrive rfl (fun _ => by simp) (fun e he => ?_) (fun _ _ => rfl) (fun p hp => by cases hp)
      (fun _ _ hi => .inl hi), rfl⟩
    cases he
    exact ⟨rfl, rfl, (mobStatsFromProto_hp hstats).1, _, rfl, rfl⟩

theorem Calm.handlePlayerEnter {msg : LifeWorld.EnterMsg} (h : Calm w) (hs : w.handlePlayerEnter cfg msg = some w') :
    Calm w' ∧ w'.stage = w.stage := by
  unfold LifeWorld.handlePlayerEnter at hs
  split at hs
  · rename_i hydrated _
    cases hs
    have hold : Calm (w.despawnExisting msg.playerId) ∧ (w.despawnExisting msg.playerId).stage = w.stage := by
      unfold LifeWorld.despawnExisting
      split
      · rename_i e hi
        exact ⟨(h.despawnIndexed hi), LifeWorld.despawn_stage w e⟩
      · exact ⟨h, rfl⟩
    exact ⟨hold.1.addPlayer rfl rfl, hold.2⟩
  · cases hs
  · cases hs

omit [GrowthRng] in
theorem Calm.handlePlayerLeave {playerId : PlayerId} {playerNetId : EntityId} (h : Calm w) :
    Calm (w.handlePlayerLeave playerId playerNetId) ∧ (w.handlePlayerLeave playerId playerNetId).stage = w.stage := by
  unfold LifeWorld.handlePlayerLeave
  split
  · exact ⟨h, rfl⟩
  · rename_i e hi
    split
    · exact ⟨h, rfl⟩
    · split
      · exact ⟨h, rfl⟩
      · exact ⟨h.despawnIndexed hi, LifeWorld.despawn_stage w e⟩

/-- What one step keeps. -/
theorem Kept.step {ev : LifeEvent} (h : Kept w) (hs : w.step cfg ev = some w') : Kept w' := by
  cases ev with
  | spawnMob mobId netId =>
    simp only [LifeWorld.step] at hs
    split at hs
    · rename_i hst
      refine h.carry ?_ fun hc => hc.spawnOneMob hs
      rcases hst with hst | hst <;> (rw [hst]; rfl)
    · cases hs
  | playerEnter msg =>
    simp only [LifeWorld.step] at hs
    split at hs
    · rename_i hst
      exact h.carry (by rw [hst]; rfl) fun hc => hc.handlePlayerEnter hs
    · cases hs
  | playerLeave playerId playerNetId =>
    simp only [LifeWorld.step] at hs
    split at hs
    · rename_i hst
      cases hs
      exact h.carry (by rw [hst]; rfl) fun hc => hc.handlePlayerLeave
    · cases hs
  | restartIntent playerId intent =>
    simp only [LifeWorld.step] at hs
    split at hs
    · rename_i hst
      unfold LifeWorld.handleRestartIntent at hs
      split at hs
      · cases hs; exact h
      · refine h.carry (by rw [hst]; rfl) fun hc => hc.updatePlayer (fun a p a' _ hf => ?_) hs
        cases hf
        exact ⟨rfl, _, rfl, rfl⟩
    · cases hs
  | tick now =>
    simp only [LifeWorld.step] at hs
    split at hs
    · rename_i hst
      cases hs
      have hc := (kept_iff_calm (by rw [hst.1]; rfl)).1 h
      exact ⟨hc.toLedger.frame rfl rfl rfl rfl (fun _ hd => hd) (fun _ hd => .inl hd), hc.2, hc.3, hc.4⟩
    · cases hs
  | coreStat e stat delta =>
    simp only [LifeWorld.step] at hs
    split at hs
    · rename_i hst
      refine h.carry (by rw [hst]; rfl) fun hc => hc.updatePlayer (fun a p a' _ hf => ?_) hs
      obtain ⟨_, _, rfl⟩ := Option.map_eq_some_iff.1 hf
      exact ⟨rfl, _, rfl, rfl⟩
    · cases hs
  | schedule command schedule =>
    simp only [LifeWorld.step] at hs
    split at hs
    · rename_i hst
      cases hs
      exact h.carry (by rw [hst]; rfl) fun hc => hc.schedule command schedule
    · cases hs
  | release travel =>
    simp only [LifeWorld.step] at hs
    split at hs
    · rename_i hst
      cases hs
      have hc := ((kept_iff_calm (by rw [hst]; rfl)).1 h).release travel
      show Ledger _ (w.releaseDueAttackCommands travel).hpDepleted (w.releaseDueAttackCommands travel).hpDepleted false
      rw [hc.noDepletion]
      exact hc.toLedger.frame rfl rfl rfl rfl (fun _ hd => hd) (fun _ hd => .inl hd)
    · cases hs
  | attack roll =>
    simp only [LifeWorld.step] at hs
    split at hs
    · rename_i c cs hst
      unfold Kept at h
      simp only [hst] at h
      have hl : Ledger { w with stage := .attacking cs } w.hpDepleted w.hpDepleted false := h.at _
      rcases LifeWorld.processAttackCommand_eq_some hs
        with rfl | ⟨v, hv, hdy, rfl⟩ | ⟨a, v, stats, _, hv, hal, hurt, _, rfl⟩
      · exact hl
      · exact hl.bury (.inl rfl) hv hdy
      · exact hl.afterHit hv hal hurt
    · cases hs
  | age order =>
    simp only [LifeWorld.step] at hs
    split at hs
    · rename_i hst
      cases hs
      unfold Kept at h
      simp only [hst.1] at h
      exact (h.1.at _).weaken (fun _ hd => hd) (fun _ hd => by cases hd) id
    · cases hs
  | regenerate accrual =>
    simp only [LifeWorld.step] at hs
    split at hs
    · rename_i e es hst
      unfold Kept at h
      simp only [hst] at h
      have hl := (h.at (.regenerating es)).updatePlayer (fun a p a' hr hf => by
        split at hf
        · obtain ⟨_, _, rfl⟩ := Option.map_eq_some_iff.1 hf
          exact ⟨rfl, _, rfl, rfl⟩
        · cases hf
          exact ⟨rfl, p, hr, rfl⟩) hs
      unfold Kept
      rw [LifeWorld.updatePlayer_stage hs]
      exact hl
    · cases hs
  | next => exact h.next hs

omit [GrowthRng] in
theorem kept_empty : Kept .empty := ⟨ledger_empty, rfl, rfl, rfl⟩

omit [GrowthRng] in
theorem Kept.ledger (h : Kept w) : ∃ owed marked begun, Ledger w owed marked begun := by
  unfold Kept at h
  split at h
  all_goals first
    | exact ⟨_, _, _, h⟩
    | exact ⟨_, _, _, h.toLedger⟩
    | exact ⟨_, _, _, h.1⟩

omit [GrowthRng] in
theorem MobStory.isPrefix {a : Actor} {claim : Option ActorRef} {p : Prop} {story : List Mark}
    (h : MobStory a claim p story) :
    ∃ killer, story <+: [.slain killer, .dying, .dead, .despawned] ∨
      story <+: [.slain killer, .dying, .dead, .awarded killer, .despawned] := by
  unfold MobStory at h
  split at h
  · rcases h.2 with ⟨_, rfl⟩ | ⟨_, _, k, rfl⟩
    · exact ⟨⟨⟨0⟩, ⟨0⟩⟩, .inl (List.nil_prefix)⟩
    · exact ⟨k, .inl ⟨[.dying, .dead, .despawned], rfl⟩⟩
  · obtain ⟨k, rfl, _⟩ := h
    exact ⟨k, .inl ⟨[.dead, .despawned], rfl⟩⟩
  · obtain ⟨k, ⟨rfl, _⟩ | ⟨rfl, _⟩⟩ := h
    · exact ⟨k, .inl ⟨[.despawned], rfl⟩⟩
    · exact ⟨k, .inr ⟨[.despawned], rfl⟩⟩

/-! ## One reward -/

/-- Over every run of frames the history of a mob is the beginning of one story: one hit takes its HP, it is dying, it
is dead, the one that made that hit may be rewarded, it is removed, and nothing of this happens twice. A reward goes
only to that player, and only if the player was on the map when the death was finalized and still is. -/
theorem one_reward_per_kill {es : List LifeEvent} (h : run (LifeWorld.step cfg) .empty es = some w) :
    (∀ mob, .spawned mob ∈ w.log → ∃ killer, chronicle mob w.log <+: [.slain killer, .dying, .dead, .despawned] ∨
      chronicle mob w.log <+: [.slain killer, .dying, .dead, .awarded killer, .despawned]) ∧
    ∀ before after mob player, w.log = before ++ .awarded mob player :: after → Credited mob player before := by
  obtain ⟨owed, marked, begun, hl⟩ := (run_inv (fun _ _ _ hk hs => Kept.step hk hs) kept_empty h).ledger
  refine ⟨fun mob hs => ?_, hl.credit⟩
  cases hget : w.actors.get? mob with
  | none =>
    obtain ⟨killer, hst | hst⟩ := hl.gone mob hs hget
    · exact ⟨killer, .inl (by rw [hst])⟩
    · exact ⟨killer, .inr (by rw [hst])⟩
  | some a =>
    cases hr : a.role with
    | player p => exact absurd hs (hl.player mob a p hget hr).2
    | mob m => exact (hl.mob mob a m hget hr).2.isPrefix

end

/-- The novice kills a wolf, and is rewarded when the wolf is dead. -/
def wolfSlain : List LifeEvent :=
  wolvesAndNovice ++ threeActorFrame 1000 [.playerBasicAttack ⟨2⟩ ⟨0⟩] 1 0 ++ threeActorRest ++
    threeActorFrame 4000 [] 0 1

theorem one_reward_per_kill_wolf :
    let := splitMix64Rolls
    ∃ w, run (LifeWorld.step wolfMap) .empty wolfSlain = some w ∧ .awarded ⟨0⟩ ⟨⟨2⟩, ⟨3⟩⟩ ∈ w.log ∧
      ∀ before after mob player, w.log = before ++ .awarded mob player :: after → Credited mob player before := by
  intro rng
  have hrun : (run (LifeWorld.step wolfMap) .empty wolfSlain).map (fun w => decide (.awarded ⟨0⟩ ⟨⟨2⟩, ⟨3⟩⟩ ∈ w.log)) =
      some true := by decide +kernel
  obtain ⟨w, hw, hmem⟩ := Option.map_eq_some_iff.1 hrun
  exact ⟨w, hw, of_decide_eq_true hmem, (one_reward_per_kill hw).2⟩

end Zohar.Sim
