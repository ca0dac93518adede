/-
Which observer is shown which entity. From zohar-sim/src/replication.rs. The graph holds the relation twice, by observer
and by target, and that the two agree is part of the type. The sets of the standard library are gone over in an order
that nobody knows: it is a parameter of whatever goes over one.
-/
import Zohar.Replication.Events
import Zohar.Lib.SetMap

namespace Zohar.Replication

open Zohar.Lib

/-! ## Iteration -/

/-- The sets without an order that one event goes over, each at most once: those of the graph, and the players that the
ECS finds. -/
inductive Site where
  | entered (observer : EntityId)
  | left (observer : EntityId)
  | observers (target : EntityId)
  | targets (observer : EntityId)
  | players
  deriving DecidableEq, Repr

/-- The order in which the elements of a set come, at each place where one is gone over. -/
structure Iteration where
  list : Site → Finset EntityId → List EntityId
  nodup : ∀ site s, (list site s).Nodup
  mem : ∀ site s e, e ∈ list site s ↔ e ∈ s

/-! ## The graph -/

/-- `entered` and `left`, in the order of the two differences. -/
structure VisibilityDiff where
  entered : List EntityId
  left : List EntityId

structure ReplicationGraph where
  visibleByObserver : SetMap EntityId EntityId
  observersByTarget : SetMap EntityId EntityId
  mirrored : ∀ o t, t ∈ visibleByObserver.row o ↔ o ∈ observersByTarget.row t

namespace ReplicationGraph

def empty : ReplicationGraph := ⟨.empty, .empty, by simp⟩

/-- The visible set of an observer. -/
def visible (g : ReplicationGraph) (observer : EntityId) : Finset EntityId := g.visibleByObserver.row observer

variable (it : Iteration)

def reconcileObserver (g : ReplicationGraph) (observer : EntityId)
    (spawnCandidates retainCandidates : Finset EntityId) :
    VisibilityDiff × ReplicationGraph :=
  let oldVisible := g.visible observer
  let newVisible := (oldVisible ∩ retainCandidates) ∪ spawnCandidates
  let entered := it.list (.entered observer) (newVisible \ oldVisible)
  let left := it.list (.left observer) (oldVisible \ newVisible)
  (⟨entered, left⟩,
    { visibleByObserver := g.visibleByObserver.setRow observer newVisible
      observersByTarget := (g.observersByTarget.insertAll entered observer).removeAll left observer
      mirrored := by
        intro o t
        rw [SetMap.mem_row_removeAll, SetMap.mem_row_insertAll, SetMap.row_setRow, ← g.mirrored, it.mem, it.mem,
          Finset.mem_sdiff, Finset.mem_sdiff]
        by_cases ho : o = observer
        · subst ho
          rw [if_pos rfl]
          change _ ↔ (t ∈ oldVisible ∨ _) ∧ _
          tauto
        · simp [ho] })

def removeObserver (g : ReplicationGraph) (observer : EntityId) : List EntityId × ReplicationGraph :=
  let targets := it.list (.targets observer) (g.visible observer)
  (targets,
    { visibleByObserver := g.visibleByObserver.setRow observer ∅
      observersByTarget := g.observersByTarget.removeAll targets observer
      mirrored := by
        intro o t
        rw [SetMap.mem_row_removeAll, SetMap.row_setRow, ← g.mirrored, it.mem]
        by_cases ho : o = observer
        · subst ho
          simp [visible]
        · simp [ho] })

/-- The prior observers are returned. -/
def removeTarget (g : ReplicationGraph) (target : EntityId) : List EntityId × ReplicationGraph :=
  let observers := it.list (.observers target) (g.observersByTarget.row target)
  (observers,
    { visibleByObserver := g.visibleByObserver.removeAll observers target
      observersByTarget := g.observersByTarget.setRow target ∅
      mirrored := by
        intro o t
        rw [SetMap.mem_row_removeAll, SetMap.row_setRow, g.mirrored, it.mem]
        by_cases ht : t = target
        · subst ht
          simp
        · simp [ht] })

/-- Whether there was an edge, and the graph without it. -/
def removeVisibility (g : ReplicationGraph) (observer target : EntityId) : Bool × ReplicationGraph :=
  (decide (target ∈ g.visible observer),
    { visibleByObserver := g.visibleByObserver.remove observer target
      observersByTarget := g.observersByTarget.remove target observer
      mirrored := by
        intro o t
        rw [SetMap.mem_row_remove, SetMap.mem_row_remove, g.mirrored, and_comm (a := o = observer)] })

def observersFor (g : ReplicationGraph) (target : EntityId) : List EntityId :=
  it.list (.observers target) (g.observersByTarget.row target)

def targetsFor (g : ReplicationGraph) (observer : EntityId) : List EntityId :=
  it.list (.targets observer) (g.visible observer)

/-! ## The visible sets -/

variable {it} {g : ReplicationGraph}

@[simp] theorem visible_empty (o : EntityId) : empty.visible o = ∅ := rfl

theorem mem_observersFor {o t : EntityId} : o ∈ g.observersFor it t ↔ t ∈ g.visible o := by
  rw [observersFor, it.mem, ← g.mirrored]
  rfl

theorem mem_targetsFor {o t : EntityId} : t ∈ g.targetsFor it o ↔ t ∈ g.visible o := it.mem _ _ _

theorem visible_reconcileObserver (observer o : EntityId) (spawnCandidates retainCandidates : Finset EntityId) :
    (g.reconcileObserver it observer spawnCandidates retainCandidates).2.visible o =
      if o = observer then (g.visible observer ∩ retainCandidates) ∪ spawnCandidates else g.visible o :=
  (SetMap.row_setRow ..).trans (by congr)

theorem visible_removeObserver (observer o : EntityId) :
    (g.removeObserver it observer).2.visible o = if o = observer then ∅ else g.visible o :=
  (SetMap.row_setRow ..).trans (by congr)

theorem mem_removeTarget {o target : EntityId} : o ∈ (g.removeTarget it target).1 ↔ target ∈ g.visible o :=
  mem_observersFor

theorem visible_removeTarget (target o : EntityId) :
    (g.removeTarget it target).2.visible o = (g.visible o).erase target := by
  ext t
  rw [visible, removeTarget, SetMap.mem_row_removeAll, it.mem, ← g.mirrored, Finset.mem_erase]
  constructor
  · rintro ⟨ht, hn⟩
    refine ⟨?_, ht⟩
    rintro rfl
    exact hn ⟨ht, rfl⟩
  · rintro ⟨hne, ht⟩
    exact ⟨ht, fun h => hne h.2⟩

theorem visible_removeVisibility (observer target o : EntityId) :
    (g.removeVisibility observer target).2.visible o =
      if o = observer then (g.visible observer).erase target else g.visible o :=
  (SetMap.row_setRow ..).trans (by congr)

end ReplicationGraph

end Zohar.Replication
