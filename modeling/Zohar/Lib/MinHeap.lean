/-
Priority queues over a linear order, least element first: the abstract content of a binary heap, as the sorted list of
its elements. The order is a field, so that the front is always a least element.
-/
import Mathlib.Data.List.Sort
import Mathlib.Tactic

namespace Zohar.Lib

structure MinHeap (α : Type) [LinearOrder α] where
  toList : List α
  sorted : toList.Pairwise (· ≤ ·)

namespace MinHeap

variable {α : Type} [LinearOrder α]

def empty : MinHeap α := ⟨[], List.Pairwise.nil⟩

def push (h : MinHeap α) (a : α) : MinHeap α := ⟨h.toList.orderedInsert (· ≤ ·) a, h.sorted.orderedInsert a _⟩

def peek (h : MinHeap α) : Option α := h.toList.head?

/-- All but the least element. -/
def pop (h : MinHeap α) : MinHeap α := ⟨h.toList.tail, h.sorted.tail⟩

instance : Membership α (MinHeap α) := ⟨fun h a => a ∈ h.toList⟩

instance (a : α) (h : MinHeap α) : Decidable (a ∈ h) := inferInstanceAs (Decidable (a ∈ h.toList))

@[simp] theorem not_mem_empty (a : α) : a ∉ (empty : MinHeap α) := List.not_mem_nil

@[simp] theorem mem_push {h : MinHeap α} {a b : α} : b ∈ h.push a ↔ b = a ∨ b ∈ h := List.mem_orderedInsert _

@[simp] theorem length_push (h : MinHeap α) (a : α) : (h.push a).toList.length = h.toList.length + 1 :=
  List.orderedInsert_length ..

/-- Only the least element goes. -/
theorem mem_pop {h : MinHeap α} {a b : α} (hp : h.peek = some a) (hb : b ∈ h) (hne : b ≠ a) : b ∈ h.pop := by
  obtain ⟨rest, hrest⟩ := List.head?_eq_some_iff.1 hp
  have hb : b ∈ h.toList := hb
  show b ∈ h.toList.tail
  rw [hrest] at hb ⊢
  exact (List.mem_cons.1 hb).resolve_left hne

theorem length_pop {h : MinHeap α} {a : α} (hp : h.peek = some a) : h.pop.toList.length + 1 = h.toList.length := by
  obtain ⟨rest, hrest⟩ := List.head?_eq_some_iff.1 hp
  simp [pop, hrest]

end MinHeap

end Zohar.Lib
