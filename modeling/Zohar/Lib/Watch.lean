/-
A watch channel: one sender, any number of receivers, and the last value sent. A receiver remembers the version of the
value that it has seen and waits for another one. A send is lost where nobody holds a receiver at that moment: the value
stays what it was, also for those who subscribe later.
-/
import Zohar.Lib.OrdMap

namespace Zohar.Lib

/-- `receivers` are those alive, each with the version that it has seen. -/
structure Watch (ι α : Type) [LinearOrder ι] where
  value : α
  version : Nat
  receivers : OrdMap ι Nat

namespace Watch

variable {ι α : Type} [LinearOrder ι]

/-- A new channel, whose first receiver has been dropped. -/
def channel (init : α) : Watch ι α := ⟨init, 0, .empty⟩

/-- A new receiver has seen the current value. -/
def subscribe (w : Watch ι α) (i : ι) : Watch ι α := { w with receivers := w.receivers.insert i w.version }

def drop (w : Watch ι α) (i : ι) : Watch ι α := { w with receivers := w.receivers.erase i }

/-- It fails where there is no receiver, and keeps the old value. -/
def send (w : Watch ι α) (value : α) : Bool × Watch ι α :=
  if w.receivers.entries.isEmpty then (false, w) else (true, { w with value, version := w.version + 1 })

def borrowAndUpdate (w : Watch ι α) (i : ι) : α × Watch ι α := (w.value, w.subscribe i)

/-- `changed` is ready. -/
def hasChanged (w : Watch ι α) (i : ι) : Bool := (w.receivers.get? i).any fun seen => decide (seen ≠ w.version)

@[simp] theorem subscribe_value (w : Watch ι α) (i : ι) : (w.subscribe i).value = w.value := rfl
@[simp] theorem subscribe_version (w : Watch ι α) (i : ι) : (w.subscribe i).version = w.version := rfl
@[simp] theorem drop_value (w : Watch ι α) (i : ι) : (w.drop i).value = w.value := rfl
@[simp] theorem drop_version (w : Watch ι α) (i : ι) : (w.drop i).version = w.version := rfl

theorem get?_subscribe (w : Watch ι α) (i j : ι) :
    (w.subscribe i).receivers.get? j = if j = i then some w.version else w.receivers.get? j := OrdMap.get?_insert ..

theorem get?_drop (w : Watch ι α) (i j : ι) :
    (w.drop i).receivers.get? j = if j = i then none else w.receivers.get? j := OrdMap.get?_erase ..

/-- What a send does: it reaches every receiver, or there is none. -/
theorem send_cases (w : Watch ι α) (value : α) :
    ((∀ i, w.receivers.get? i = none) ∧ w.send value = (false, w)) ∨
    ((∃ i seen, w.receivers.get? i = some seen) ∧
      w.send value = (true, { w with value, version := w.version + 1 })) := by
  unfold send
  split
  · rename_i h
    refine .inl ⟨fun i => ?_, rfl⟩
    rw [Option.eq_none_iff_forall_ne_some]
    intro seen hi
    rw [OrdMap.get?_eq_some_iff, List.isEmpty_iff.1 h] at hi
    cases hi
  · rename_i h
    obtain ⟨⟨i, seen⟩, hi⟩ := List.exists_mem_of_ne_nil _ (mt List.isEmpty_iff.2 h)
    exact .inr ⟨⟨i, seen, OrdMap.get?_eq_some_iff.2 hi⟩, rfl⟩

end Watch

end Zohar.Lib
