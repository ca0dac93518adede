/-
The replication graph as the code stores it: two hash maps from an entity to a set, which promise nothing of each other.
Every operation of zohar-sim/src/replication.rs updates them edge by edge. On the maps of a `ReplicationGraph` these
updates do what its operations do, so after any sequence of operations the two maps are inverse to each other and hold
no empty set, and what the operations return is what has changed.
-/
import Zohar.Replication.Graph

namespace Zohar.Replication

open Zohar.Lib

/-- `HashMap<EntityId, HashSet<EntityId>>` -/
abbrev EdgeMap := OrdMap EntityId (Finset EntityId)

structure EdgeMaps where
  visibleByObserver : EdgeMap
  observersByTarget : EdgeMap

namespace EdgeMaps

def empty : EdgeMaps := ⟨.empty, .empty⟩

/-! ## The operations -/

def visible (g : EdgeMaps) (observer : EntityId) : Finset EntityId := (g.visibleByObserver.get? observer).getD ∅

def observers (g : EdgeMaps) (target : EntityId) : Finset EntityId := (g.observersByTarget.get? target).getD ∅

def reconcileObserver (it : Iteration) (g : EdgeMaps) (observer : EntityId)
    (spawnCandidates retainCandidates : Finset EntityId) :
    VisibilityDiff × EdgeMaps :=
  let oldVisible := g.visible observer
  let newVisible := (oldVisible ∩ retainCandidates) ∪ spawnCandidates
  let entered := it.list (.entered observer) (newVisible \ oldVisible)
  let left := it.list (.left observer) (oldVisible \ newVisible)
  let observersByTarget := entered.foldl (fun m target => SetMap.insertAt m target observer) g.observersByTarget
  let observersByTarget := left.foldl (fun m target => SetMap.removeAt m target observer) observersByTarget
  let visibleByObserver :=
    if newVisible = ∅ then g.visibleByObserver.erase observer else g.visibleByObserver.insert observer newVisible
  (⟨entered, left⟩, ⟨visibleByObserver, observersByTarget⟩)

def removeObserver (it : Iteration) (g : EdgeMaps) (observer : EntityId) : List EntityId × EdgeMaps :=
  match g.visibleByObserver.get? observer with
  | none => ([], g)
  | some targets =>
    let targets := it.list (.targets observer) targets
    (targets,
      { visibleByObserver := g.visibleByObserver.erase observer
        observersByTarget := targets.foldl (fun m target => SetMap.removeAt m target observer) g.observersByTarget })

def removeTarget (it : Iteration) (g : EdgeMaps) (target : EntityId) : List EntityId × EdgeMaps :=
  match g.observersByTarget.get? target with
  | none => ([], g)
  | some observers =>
    let observers := it.list (.observers target) observers
    (observers,
      { visibleByObserver := observers.foldl (fun m observer => SetMap.removeAt m observer target) g.visibleByObserver
        observersByTarget := g.observersByTarget.erase target })

def removeVisibility (g : EdgeMaps) (observer target : EntityId) : Bool × EdgeMaps :=
  let removed := decide (target ∈ g.visible observer)
  let visibleByObserver := SetMap.removeAt g.visibleByObserver observer target
  -- the other side is touched only for an edge that was there
  let observersByTarget := if removed then SetMap.removeAt g.observersByTarget target observer else g.observersByTarget
  (removed, ⟨visibleByObserver, observersByTarget⟩)

/-! ## The graph with its invariant -/

/-- The maps of a graph, without what it promises of them. -/
def ofGraph (g : ReplicationGraph) : EdgeMaps := ⟨g.visibleByObserver.map, g.observersByTarget.map⟩

variable (it : Iteration) (g : ReplicationGraph)

theorem visible_ofGraph (observer : EntityId) : (ofGraph g).visible observer = g.visible observer := rfl

theorem reconcileObserver_ofGraph (observer : EntityId) (spawnCandidates retainCandidates : Finset EntityId) :
    (ofGraph g).reconcileObserver it observer spawnCandidates retainCandidates =
      ((g.reconcileObserver it observer spawnCandidates retainCandidates).1,
        ofGraph (g.reconcileObserver it observer spawnCandidates retainCandidates).2) := by
  simp only [reconcileObserver, ReplicationGraph.reconcileObserver, ofGraph, SetMap.map_removeAll, SetMap.map_insertAll,
    SetMap.map_setRow]
  rfl

/-- The order of a set without elements. -/
theorem list_empty (site : Site) : it.list site ∅ = [] := by
  rw [List.eq_nil_iff_forall_not_mem]
  intro e he
  exact absurd ((it.mem site ∅ e).1 he) (Finset.notMem_empty e)

theorem removeObserver_ofGraph (observer : EntityId) :
    (ofGraph g).removeObserver it observer =
      ((g.removeObserver it observer).1, ofGraph (g.removeObserver it observer).2) := by
  simp only [removeObserver, ReplicationGraph.removeObserver, ofGraph, SetMap.map_removeAll, SetMap.map_setRow, if_true]
  cases h : g.visibleByObserver.map.get? observer with
  | none =>
    -- the early return: there is nothing to take out
    have hrow : g.visible observer = ∅ := SetMap.row_eq_empty_iff.2 h
    rw [hrow, list_empty, List.foldl_nil, OrdMap.erase_of_get?_none h]
  | some targets =>
    have hrow : g.visible observer = targets := by simp [ReplicationGraph.visible, SetMap.row, h]
    rw [hrow]

theorem removeTarget_ofGraph (target : EntityId) :
    (ofGraph g).removeTarget it target = ((g.removeTarget it target).1, ofGraph (g.removeTarget it target).2) := by
  simp only [removeTarget, ReplicationGraph.removeTarget, ofGraph, SetMap.map_removeAll, SetMap.map_setRow, if_true]
  cases h : g.observersByTarget.map.get? target with
  | none =>
    have hrow : g.observersByTarget.row target = ∅ := SetMap.row_eq_empty_iff.2 h
    rw [hrow, list_empty, List.foldl_nil, OrdMap.erase_of_get?_none h]
  | some observers =>
    have hrow : g.observersByTarget.row target = observers := by simp [SetMap.row, h]
    rw [hrow]

theorem removeVisibility_ofGraph (observer target : EntityId) :
    (ofGraph g).removeVisibility observer target =
      ((g.removeVisibility observer target).1, ofGraph (g.removeVisibility observer target).2) := by
  have hvis : SetMap.removeAt (ofGraph g).visibleByObserver observer target =
      (g.visibleByObserver.remove observer target).map := (SetMap.map_remove ..).symm
  have hobs : (if decide (target ∈ (ofGraph g).visible observer) then
      SetMap.removeAt (ofGraph g).observersByTarget target observer else (ofGraph g).observersByTarget) =
        (g.observersByTarget.remove target observer).map := by
    by_cases h : target ∈ (ofGraph g).visible observer
    · rw [decide_eq_true h, if_pos rfl, SetMap.map_remove]
      rfl
    · have ho : observer ∉ g.observersByTarget.row target := fun ho => h ((g.mirrored observer target).2 ho)
      rw [decide_eq_false h, if_neg Bool.false_ne_true, SetMap.map_remove_of_notMem ho]
      rfl
  unfold removeVisibility
  dsimp only
  rw [hvis, hobs]
  rfl

end EdgeMaps

/-! ## Sequences of operations -/

/-- An operation, with the order in which it goes over the sets. -/
inductive EdgeOp where
  | reconcileObserver (it : Iteration) (observer : EntityId) (spawnCandidates retainCandidates : Finset EntityId)
  | removeObserver (it : Iteration) (observer : EntityId)
  | removeTarget (it : Iteration) (target : EntityId)
  | removeVisibility (observer target : EntityId)

namespace EdgeOp

def apply (g : EdgeMaps) : EdgeOp → EdgeMaps
  | reconcileObserver it observer spawn retain => (g.reconcileObserver it observer spawn retain).2
  | removeObserver it observer => (g.removeObserver it observer).2
  | removeTarget it target => (g.removeTarget it target).2
  | removeVisibility observer target => (g.removeVisibility observer target).2

def applyGraph (g : ReplicationGraph) : EdgeOp → ReplicationGraph
  | reconcileObserver it observer spawn retain => (g.reconcileObserver it observer spawn retain).2
  | removeObserver it observer => (g.removeObserver it observer).2
  | removeTarget it target => (g.removeTarget it target).2
  | removeVisibility observer target => (g.removeVisibility observer target).2

theorem apply_ofGraph (g : ReplicationGraph) (op : EdgeOp) : apply (.ofGraph g) op = .ofGraph (applyGraph g op) := by
  cases op with
  | reconcileObserver it observer spawn retain =>
    exact congrArg Prod.snd (EdgeMaps.reconcileObserver_ofGraph it g observer spawn retain)
  | removeObserver it observer => exact congrArg Prod.snd (EdgeMaps.removeObserver_ofGraph it g observer)
  | removeTarget it target => exact congrArg Prod.snd (EdgeMaps.removeTarget_ofGraph it g target)
  | removeVisibility observer target => exact congrArg Prod.snd (EdgeMaps.removeVisibility_ofGraph g observer target)

/-- The maps after a sequence of operations are those of the graph after it. -/
theorem foldl_apply_ofGraph : ∀ (ops : List EdgeOp) (g : ReplicationGraph),
    ops.foldl apply (.ofGraph g) = .ofGraph (ops.foldl applyGraph g)
  | [], _ => rfl
  | op :: ops, g => by
    rw [List.foldl_cons, List.foldl_cons, apply_ofGraph, foldl_apply_ofGraph ops]

end EdgeOp

namespace EdgeMaps

/-- The two maps store one relation, and no empty set. -/
structure Inverse (g : EdgeMaps) : Prop where
  mirrored : ∀ o t, t ∈ g.visible o ↔ o ∈ g.observers t
  visibleNonempty : ∀ o s, g.visibleByObserver.get? o = some s → s.Nonempty
  observersNonempty : ∀ t s, g.observersByTarget.get? t = some s → s.Nonempty

theorem inverse_ofGraph (g : ReplicationGraph) : (ofGraph g).Inverse :=
  ⟨g.mirrored, g.visibleByObserver.nonempty, g.observersByTarget.nonempty⟩

/-- What a reconciliation does to the relation, and what it returns. -/
structure Reconciles (g : EdgeMaps) (observer : EntityId) (spawnCandidates retainCandidates : Finset EntityId)
    (diff : VisibilityDiff) (g' : EdgeMaps) : Prop where
  visible : g'.visible observer = (g.visible observer ∩ retainCandidates) ∪ spawnCandidates
  entered : ∀ t, t ∈ diff.entered ↔ t ∈ g'.visible observer ∧ t ∉ g.visible observer
  left : ∀ t, t ∈ diff.left ↔ t ∈ g.visible observer ∧ t ∉ g'.visible observer
  nodup : diff.entered.Nodup ∧ diff.left.Nodup
  others : ∀ o, o ≠ observer → g'.visible o = g.visible o

theorem reconciles_ofGraph (it : Iteration) (g : ReplicationGraph) (observer : EntityId)
    (spawnCandidates retainCandidates : Finset EntityId) :
    (ofGraph g).Reconciles observer spawnCandidates retainCandidates
      ((ofGraph g).reconcileObserver it observer spawnCandidates retainCandidates).1
      ((ofGraph g).reconcileObserver it observer spawnCandidates retainCandidates).2 := by
  rw [reconcileObserver_ofGraph]
  have hself := @ReplicationGraph.visible_reconcileObserver it g observer observer spawnCandidates retainCandidates
  rw [if_pos rfl] at hself
  refine ⟨hself, ?_, ?_, ⟨it.nodup _ _, it.nodup _ _⟩, ?_⟩
  · intro t
    rw [visible_ofGraph, hself]
    exact (it.mem _ _ t).trans Finset.mem_sdiff
  · intro t
    rw [visible_ofGraph, visible_ofGraph, hself]
    exact (it.mem _ _ t).trans Finset.mem_sdiff
  · intro o ho
    exact (@ReplicationGraph.visible_reconcileObserver it g observer o spawnCandidates retainCandidates).trans
      (if_neg ho)

end EdgeMaps

/-- The representation after any sequence of operations, each with its own order of iteration: the two maps are exact
inverses without empty sets; a reconciliation leaves the observer with the retained and the new candidates and returns
the two differences; a removal returns exactly the edges that it takes away, and leaves the others. -/
theorem edgeMaps_represent (ops : List EdgeOp) :
    let g := ops.foldl EdgeOp.apply .empty
    g.Inverse ∧
    (∀ it observer spawn retain, g.Reconciles observer spawn retain (g.reconcileObserver it observer spawn retain).1
      (g.reconcileObserver it observer spawn retain).2) ∧
    (∀ it observer, (g.removeObserver it observer).1.Nodup ∧
      (∀ t, t ∈ (g.removeObserver it observer).1 ↔ t ∈ g.visible observer) ∧
      ∀ o t, t ∈ (g.removeObserver it observer).2.visible o ↔ t ∈ g.visible o ∧ o ≠ observer) ∧
    (∀ it target, (g.removeTarget it target).1.Nodup ∧ (∀ o, o ∈ (g.removeTarget it target).1 ↔ target ∈ g.visible o) ∧
      ∀ o t, t ∈ (g.removeTarget it target).2.visible o ↔ t ∈ g.visible o ∧ t ≠ target) ∧
    (∀ observer target, ((g.removeVisibility observer target).1 = true ↔ target ∈ g.visible observer) ∧
      ∀ o t, t ∈ (g.removeVisibility observer target).2.visible o ↔ t ∈ g.visible o ∧
        ¬ (o = observer ∧ t = target)) := by
  intro g
  have hg : g = .ofGraph (ops.foldl EdgeOp.applyGraph .empty) := EdgeOp.foldl_apply_ofGraph ops .empty
  generalize ops.foldl EdgeOp.applyGraph .empty = graph at hg
  rw [hg]
  refine ⟨EdgeMaps.inverse_ofGraph graph, fun it => EdgeMaps.reconciles_ofGraph it graph, ?_, ?_, ?_⟩
  · intro it observer
    rw [EdgeMaps.removeObserver_ofGraph]
    refine ⟨it.nodup _ _, fun t => it.mem _ _ t, fun o t => ?_⟩
    rw [EdgeMaps.visible_ofGraph, EdgeMaps.visible_ofGraph, graph.visible_removeObserver]
    by_cases ho : o = observer
    · simp [ho]
    · simp [ho]
  · intro it target
    rw [EdgeMaps.removeTarget_ofGraph]
    refine ⟨it.nodup _ _, fun o => ReplicationGraph.mem_removeTarget, fun o t => ?_⟩
    rw [EdgeMaps.visible_ofGraph, EdgeMaps.visible_ofGraph, graph.visible_removeTarget, Finset.mem_erase, and_comm]
  · intro observer target
    rw [EdgeMaps.removeVisibility_ofGraph]
    refine ⟨decide_eq_true_iff, fun o t => ?_⟩
    rw [EdgeMaps.visible_ofGraph, EdgeMaps.visible_ofGraph, graph.visible_removeVisibility]
    by_cases ho : o = observer
    · subst ho
      rw [if_pos rfl, Finset.mem_erase]
      tauto
    · simp [ho]

end Zohar.Replication
