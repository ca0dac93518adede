/-
Commands: fallible stateful code. A command ends in one of three ways: it returns a value, it returns an
error (an early return keeps what it has written so far), or it does not return at all (a failed
assertion). The rules below carry a relation between the state before and the state after through the
parts of a command.
-/
import Mathlib.Tactic

namespace Zohar.Lib

/-- A command over states `σ` with errors `ε`; `none` is a failed assertion. -/
structure Cmd (ε σ α : Type) where
  run : σ → Option (Except ε α × σ)

namespace Cmd

variable {ε σ α β : Type}

/-- Continue after a part that returned a value. -/
def andThen (f : α → Cmd ε σ β) : Option (Except ε α × σ) → Option (Except ε β × σ)
  | none => none
  | some (.error e, t) => some (.error e, t)
  | some (.ok a, t) => (f a).run t

instance : Monad (Cmd ε σ) where
  pure a := ⟨fun s => some (.ok a, s)⟩
  bind c f := ⟨fun s => andThen f (c.run s)⟩

/-- Read the state with a function that can return an error (`?`). -/
def tryRead (f : σ → Except ε α) : Cmd ε σ α := ⟨fun s => some (f s, s)⟩

/-- A check that can fail an assertion, and return an error otherwise. -/
def check (o : Option (Except ε α)) : Cmd ε σ α := ⟨fun s => o.map fun r => (r, s)⟩

/-- A value that an assertion guards. -/
def expect (o : Option α) : Cmd ε σ α := check (o.map .ok)

/-- Write the state, or return an error with the state as it was. -/
def update (f : σ → Except ε σ) : Cmd ε σ Unit := ⟨fun s =>
  match f s with
  | .error e => some (.error e, s)
  | .ok t => some (.ok (), t)⟩

/-- Write the state; an error fails an assertion. -/
def updateExpect {δ : Type} (f : σ → Except δ σ) : Cmd ε σ Unit := ⟨fun s =>
  match f s with
  | .error _ => none
  | .ok t => some (.ok (), t)⟩

/-- The command with its errors translated. -/
def mapError {δ : Type} (f : ε → δ) (c : Cmd ε σ α) : Cmd δ σ α :=
  ⟨fun s => (c.run s).map fun r => (r.1.mapError f, r.2)⟩

/-- The state after the command, whatever it returned. -/
def exec (c : Cmd ε σ α) (s : σ) : Option σ := (c.run s).map (·.2)

/-! ## Running -/

theorem run_bind (c : Cmd ε σ α) (f : α → Cmd ε σ β) (s : σ) : (c >>= f).run s = andThen f (c.run s) := rfl

theorem run_bind_ok {c : Cmd ε σ α} {f : α → Cmd ε σ β} {s t : σ} {a : α} (h : c.run s = some (.ok a, t)) :
    (c >>= f).run s = (f a).run t := by
  rw [run_bind, h]; rfl

theorem run_bind_none {c : Cmd ε σ α} {f : α → Cmd ε σ β} {s : σ} (h : c.run s = none) : (c >>= f).run s = none := by
  rw [run_bind, h]; rfl

theorem run_tryRead_bind (f : σ → Except ε α) (g : α → Cmd ε σ β) (s : σ) : (tryRead f >>= g).run s =
    match f s with
    | .error e => some (.error e, s)
    | .ok a => (g a).run s := by
  rw [run_bind]
  show andThen g (some (f s, s)) = _
  cases f s <;> rfl

theorem run_expect_bind (o : Option α) (g : α → Cmd ε σ β) (s : σ) :
    (expect o >>= g).run s = o.bind fun a => (g a).run s := by
  cases o <;> rfl

theorem run_updateExpect_bind {δ : Type} {f : σ → Except δ σ} (g : Unit → Cmd ε σ β) {s t : σ} (h : f s = .ok t) :
    (updateExpect f >>= g).run s = (g ()).run t :=
  run_bind_ok (by simp only [updateExpect, h])

theorem run_mapError_ok {δ : Type} {f : ε → δ} {c : Cmd ε σ α} {s t : σ} {a : α} (h : c.run s = some (.ok a, t)) :
    (c.mapError f).run s = some (.ok a, t) := by
  simp only [mapError, h, Option.map_some]; rfl

/-- How a sequence ends: with the error of its first part, or as its second part ends. -/
theorem bind_eq_some {c : Cmd ε σ α} {f : α → Cmd ε σ β} {s u : σ} {r : Except ε β}
    (h : (c >>= f).run s = some (r, u)) :
    (∃ e, c.run s = some (.error e, u) ∧ r = .error e) ∨
      ∃ a t, c.run s = some (.ok a, t) ∧ (f a).run t = some (r, u) := by
  rw [run_bind] at h
  rcases hc : c.run s with _ | ⟨e | a, t⟩
  · rw [hc] at h; cases h
  · rw [hc] at h; cases h
    exact .inl ⟨e, rfl, rfl⟩
  · rw [hc] at h
    exact .inr ⟨a, t, rfl, h⟩

/-- Where a sequence returned a value, both its parts did. -/
theorem bind_eq_ok {c : Cmd ε σ α} {f : α → Cmd ε σ β} {s u : σ} {x : β} (h : (c >>= f).run s = some (.ok x, u)) :
    ∃ a t, c.run s = some (.ok a, t) ∧ (f a).run t = some (.ok x, u) := by
  rcases bind_eq_some h with ⟨e, _, he⟩ | h
  · cases he
  · exact h

theorem exec_eq_some {c : Cmd ε σ α} {s t : σ} : c.exec s = some t ↔ ∃ r, c.run s = some (r, t) := by
  unfold exec
  rw [Option.map_eq_some_iff]
  constructor
  · rintro ⟨⟨r, _⟩, h, rfl⟩; exact ⟨r, h⟩
  · rintro ⟨r, h⟩; exact ⟨(r, t), h, rfl⟩

theorem expect_eq_some {o : Option α} {s t : σ} {r : Except ε α} (h : (expect o : Cmd ε σ α).run s = some (r, t)) :
    ∃ a, o = some a ∧ r = .ok a ∧ t = s := by
  cases o with
  | none => cases h
  | some a => cases h; exact ⟨a, rfl, rfl, rfl⟩

theorem updateExpect_eq_some {δ : Type} {f : σ → Except δ σ} {s t : σ} {r : Except ε Unit}
    (h : (updateExpect f : Cmd ε σ Unit).run s = some (r, t)) : r = .ok () ∧ f s = .ok t := by
  simp only [updateExpect] at h
  split at h
  · cases h
  · rename_i hu
    cases h
    exact ⟨rfl, hu⟩

/-! ## Relations a command keeps -/

/-- Wherever the command ends, the states before and after are related. -/
def Keeps (R : σ → σ → Prop) (c : Cmd ε σ α) : Prop := ∀ s r t, c.run s = some (r, t) → R s t

variable {R : σ → σ → Prop}

theorem keeps_pure (hr : ∀ s, R s s) (a : α) : Keeps R (pure a : Cmd ε σ α) := by
  intro s r t h
  cases h
  exact hr s

theorem keeps_bind (ht : ∀ s t u, R s t → R t u → R s u) {c : Cmd ε σ α} {f : α → Cmd ε σ β} (hc : Keeps R c)
    (hf : ∀ a, Keeps R (f a)) : Keeps R (c >>= f) := by
  intro s r u h
  rcases bind_eq_some h with ⟨e, h, _⟩ | ⟨a, t, h, h'⟩
  · exact hc s _ u h
  · exact ht s t u (hc s _ t h) (hf a t r u h')

theorem keeps_tryRead (hr : ∀ s, R s s) (f : σ → Except ε α) : Keeps R (tryRead f) := by
  intro s r t h
  cases h
  exact hr s

theorem keeps_check (hr : ∀ s, R s s) (o : Option (Except ε α)) : Keeps R (check o : Cmd ε σ α) := by
  intro s r t h
  obtain ⟨a, _, ha⟩ := Option.map_eq_some_iff.1 h
  cases ha
  exact hr s

theorem keeps_expect (hr : ∀ s, R s s) (o : Option α) : Keeps R (expect o : Cmd ε σ α) := keeps_check hr _

/-- An assertion is followed only by the values it lets through. -/
theorem keeps_expect_bind {o : Option α} {f : α → Cmd ε σ β} (hf : ∀ a, o = some a → Keeps R (f a)) :
    Keeps R (expect o >>= f) := by
  intro s r t h
  rw [run_expect_bind, Option.bind_eq_some_iff] at h
  obtain ⟨a, ha, h⟩ := h
  exact hf a ha s r t h

theorem keeps_updateExpect {δ : Type} {f : σ → Except δ σ} (hf : ∀ s t, f s = .ok t → R s t) :
    Keeps R (updateExpect f : Cmd ε σ Unit) := by
  intro s r t h
  simp only [updateExpect] at h
  split at h
  · cases h
  · rename_i hu
    cases h
    exact hf s _ hu

theorem keeps_update (hr : ∀ s, R s s) {f : σ → Except ε σ} (hf : ∀ s t, f s = .ok t → R s t) : Keeps R (update f) := by
  intro s r t h
  simp only [update] at h
  split at h
  · cases h; exact hr s
  · rename_i hu
    cases h
    exact hf s _ hu

theorem keeps_mapError {δ : Type} {f : ε → δ} {c : Cmd ε σ α} (hc : Keeps R c) : Keeps R (c.mapError f) := by
  intro s r t h
  obtain ⟨⟨a, u⟩, hu, he⟩ := Option.map_eq_some_iff.1 h
  cases he
  exact hc s a u hu

theorem keeps_ite {p : Prop} [Decidable p] {c d : Cmd ε σ α} (hc : Keeps R c) (hd : Keeps R d) :
    Keeps R (if p then c else d) := by
  split
  · exact hc
  · exact hd

/-! ## Commands that always end -/

/-- No assertion fails, whatever the state. -/
def Total (c : Cmd ε σ α) : Prop := ∀ s, c.run s ≠ none

theorem total_update (f : σ → Except ε σ) : Total (update f) := by
  intro s h
  simp only [update] at h
  split at h
  · cases h
  · cases h

theorem total_bind {c : Cmd ε σ α} {f : α → Cmd ε σ β} (hc : Total c) (hf : ∀ a, Total (f a)) : Total (c >>= f) := by
  intro s h
  rw [run_bind] at h
  rcases hr : c.run s with _ | ⟨e | a, t⟩
  · exact hc s hr
  · rw [hr] at h
    cases h
  · rw [hr] at h
    exact hf a t h

end Cmd

end Zohar.Lib
