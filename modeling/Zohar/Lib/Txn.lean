/-
A connection to a store with transactions and savepoints, which can be lost before any command that it carries out; what
was done since the outermost open savepoint is lost with it. The rules say of each command what it returns and leaves,
and what the store holds where the connection ends there, and triples compose them.
-/
import Zohar.Lib.Cmd

namespace Zohar.Lib

/-! ## Triples -/

namespace Cmd

variable {ε σ α β : Type}

/-- How a command ended: with a value, of which and of the state `Q` holds, or with an error, of which `E` does. -/
def Ends (Q : α → σ → Prop) (E : ε → σ → Prop) : Except ε α × σ → Prop
  | (.ok a, t) => Q a t
  | (.error e, t) => E e t

/-- Where `P` holds the command ends, and ends with `Q` or with `E`. -/
def Triple (P : σ → Prop) (c : Cmd ε σ α) (Q : α → σ → Prop) (E : ε → σ → Prop) : Prop :=
  ∀ s, P s → ∃ r, c.run s = some r ∧ Ends Q E r

variable {P P' : σ → Prop} {Q Q' : α → σ → Prop} {R : β → σ → Prop} {E E' : ε → σ → Prop} {c : Cmd ε σ α}
  {f : α → Cmd ε σ β}

theorem Triple.pure {a : α} (h : ∀ s, P s → Q a s) : Triple P (Pure.pure a : Cmd ε σ α) Q E :=
  fun s hs => ⟨_, rfl, h s hs⟩

theorem Triple.bind (hc : Triple P c Q E) (hf : ∀ a, Triple (Q a) (f a) R E) : Triple P (c >>= f) R E := by
  intro s hs
  obtain ⟨⟨e | a, t⟩, hrun, hend⟩ := hc s hs
  · refine ⟨(.error e, t), ?_, hend⟩
    rw [run_bind, hrun]
    rfl
  · obtain ⟨r, hrun', hend'⟩ := hf a t hend
    exact ⟨r, (run_bind_ok hrun).trans hrun', hend'⟩

theorem Triple.weaken (h : Triple P c Q E) (hP : ∀ s, P' s → P s) (hQ : ∀ a s, Q a s → Q' a s)
    (hE : ∀ e s, E e s → E' e s) :
    Triple P' c Q' E' := by
  intro s hs
  obtain ⟨⟨e | a, t⟩, hrun, hend⟩ := h s (hP s hs)
  · exact ⟨_, hrun, hE e t hend⟩
  · exact ⟨_, hrun, hQ a t hend⟩

/-- A first part with an error condition of its own. -/
theorem Triple.seq (hc : Triple P c Q E') (hE : ∀ e s, E' e s → E e s) (hf : ∀ a, Triple (Q a) (f a) R E) :
    Triple P (c >>= f) R E :=
  .bind (hc.weaken (fun _ h => h) (fun _ _ h => h) hE) hf

/-- A fact that holds beside the condition on the state. -/
theorem Triple.of_fact {p : Prop} (h : p → Triple P c Q E) : Triple (fun s => p ∧ P s) c Q E :=
  fun s hs => h hs.1 s hs.2

/-- A command that ends with an error alone. -/
def throw (e : ε) : Cmd ε σ α := ⟨fun s => some (.error e, s)⟩

theorem Triple.throw {e : ε} (h : ∀ s, P s → E e s) : Triple P (Cmd.throw e : Cmd ε σ α) Q E :=
  fun s hs => ⟨_, rfl, h s hs⟩

/-- A command for each element, and the values that they returned. -/
def collect {γ : Type} (f : γ → Cmd ε σ (Option α)) : List γ → Cmd ε σ (List α)
  | [] => Pure.pure []
  | x :: xs => f x >>= fun a => collect f xs >>= fun as => Pure.pure (a.toList ++ as)

theorem Triple.collect_from {γ : Type} {f : γ → Cmd ε σ (Option α)} {I : List γ → List α → σ → Prop}
    {E : ε → σ → Prop} :
    ∀ (xs before : List γ) (values : List α),
      (∀ done x rest as, before ++ xs = done ++ x :: rest →
        Triple (I done as) (f x) (fun a => I (done ++ [x]) (as ++ a.toList)) E) →
      Triple (I before values) (collect f xs) (fun as => I (before ++ xs) (values ++ as)) E
  | [], before, values, _ => by
    refine Triple.pure ?_
    intro s hs
    rwa [List.append_nil, List.append_nil]
  | x :: xs, before, values, hstep => by
    refine Triple.bind (hstep before x xs values rfl) ?_
    intro a
    have hsplit : before ++ x :: xs = before ++ [x] ++ xs := (List.append_assoc _ [x] xs).symm
    rw [hsplit] at hstep ⊢
    refine Triple.bind (Triple.collect_from xs (before ++ [x]) (values ++ a.toList) hstep) ?_
    intro as
    refine Triple.pure ?_
    intro s hs
    rwa [List.append_assoc values] at hs

/-- What holds before each element of what came before it holds at the end of all. -/
theorem Triple.collect {γ : Type} {f : γ → Cmd ε σ (Option α)} {xs : List γ} (I : List γ → List α → σ → Prop)
    {E : ε → σ → Prop}
    (hstep : ∀ done x rest as, xs = done ++ x :: rest →
      Triple (I done as) (f x) (fun a => I (done ++ [x]) (as ++ a.toList)) E) :
    Triple (I [] []) (Cmd.collect f xs) (I xs) E :=
  Triple.collect_from xs [] [] hstep

end Cmd

/-! ## Connections -/

/-- What a connection sees, what it saw at each open savepoint, the innermost first, where a transaction is one without
a name, and how many commands it still carries out, if it is to be lost. -/
structure Conn (N S : Type) where
  db : S
  saves : List (Option N × S)
  left : Option Nat

namespace Conn

variable {ε N S α : Type}

/-- What the store holds behind a connection. -/
def behind (db : S) (saves : List (Option N × S)) : S := (saves.getLast?.map (·.2)).getD db

/-- What the store holds once the connection has ended. -/
def durable (c : Conn N S) : S := behind c.db c.saves

def fresh (db : S) (left : Option Nat) : Conn N S := ⟨db, [], left⟩

/-- A command that the connection carries out unless it is lost before. -/
def command (lost : ε) (f : Conn N S → Except ε (α × Conn N S)) : Cmd ε (Conn N S) α := ⟨fun c =>
  match c.left with
  | some 0 => some (.error lost, c)
  | left =>
    match f { c with left := left.map (· - 1) } with
    | .ok (a, c') => some (.ok a, c')
    | .error e => some (.error e, c)⟩

variable (lost : ε)

/-- A statement that reads and writes what the connection sees. -/
def query (f : S → α × S) : Cmd ε (Conn N S) α := command lost fun c => .ok ((f c.db).1, { c with db := (f c.db).2 })

/-- `BEGIN`, which fails in a transaction. -/
def begin (nested : ε) : Cmd ε (Conn N S) Unit :=
  command lost fun c => if c.saves.isEmpty then .ok ((), { c with saves := [(none, c.db)] }) else .error nested

/-- `COMMIT`, which fails outside of a transaction. -/
def commit (none : ε) : Cmd ε (Conn N S) Unit :=
  command lost fun c => if c.saves.isEmpty then .error none else .ok ((), { c with saves := [] })

/-- `ROLLBACK`. -/
def rollback (none : ε) : Cmd ε (Conn N S) Unit :=
  command lost fun c => if c.saves.isEmpty then .error none else .ok ((), { c with db := c.durable, saves := [] })

/-- `SAVEPOINT`. -/
def savepoint (name : N) : Cmd ε (Conn N S) Unit :=
  command lost fun c => .ok ((), { c with saves := (some name, c.db) :: c.saves })

variable [DecidableEq N]

/-- `RELEASE`, of the innermost savepoint of the name and all inside it. -/
def release (unknown : ε) (name : N) : Cmd ε (Conn N S) Unit :=
  command lost fun c =>
    match c.saves.dropWhile fun save => save.1 ≠ some name with
    | [] => .error unknown
    | _ :: saves => .ok ((), { c with saves })

/-- `ROLLBACK TO`, which leaves the savepoint open. -/
def rollbackTo (unknown : ε) (name : N) : Cmd ε (Conn N S) Unit :=
  command lost fun c =>
    match c.saves.dropWhile fun save => save.1 ≠ some name with
    | [] => .error unknown
    | save :: saves => .ok ((), { c with db := save.2, saves := save :: saves })

/-! ## Rules -/

/-- The connection sees `db` and has the savepoints open, and it lasts. -/
def At (lasts : Bool) (db : S) (saves : List (Option N × S)) (c : Conn N S) : Prop :=
  c.db = db ∧ c.saves = saves ∧ c.left.isNone = lasts

/-- The connection was lost, and the store holds `db`. -/
def Lost (lasts : Bool) (db : S) (e : ε) (c : Conn N S) : Prop := e = lost ∧ lasts = false ∧ c.durable = db

variable {lost} {lasts : Bool} {db s : S} {saves saves' : List (Option N × S)} {name : N}

omit [DecidableEq N] in
theorem run_command {f : Conn N S → Except ε (α × Conn N S)} {c : Conn N S} {r : α × Conn N S} (hleft : c.left ≠ some 0)
    (h : f { c with left := c.left.map (· - 1) } = .ok r) : (command lost f).run c = some (.ok r.1, r.2) := by
  obtain ⟨db, saves, left⟩ := c
  unfold command
  dsimp only at h hleft ⊢
  split
  · exact absurd rfl hleft
  · rw [h]

omit [DecidableEq N] in
theorem command_spec {f : Conn N S → Except ε (α × Conn N S)} {a : α} {db' : S}
    (h : ∀ left, f ⟨db, saves, left⟩ = .ok (a, ⟨db', saves', left⟩)) :
    Cmd.Triple (At lasts db saves) (command lost f) (fun r c => r = a ∧ At lasts db' saves' c)
      (Lost lost lasts (behind db saves)) := by
  rintro ⟨_, _, left⟩ ⟨rfl, rfl, hlasts⟩
  by_cases hleft : left = some 0
  · subst hleft
    exact ⟨_, rfl, rfl, hlasts.symm, rfl⟩
  · refine ⟨_, run_command hleft (h _), rfl, rfl, rfl, ?_⟩
    rw [← hlasts]
    cases left <;> rfl

omit [DecidableEq N] in
theorem query_spec (f : S → α × S) :
    Cmd.Triple (At lasts db saves) (query lost f) (fun r c => r = (f db).1 ∧ At lasts (f db).2 saves c)
      (Lost lost lasts (behind db saves)) :=
  command_spec fun _ => rfl

omit [DecidableEq N] in
theorem begin_spec {nested : ε} :
    Cmd.Triple (At lasts db []) (begin lost nested) (fun _ => At lasts db [((none : Option N), db)])
      (Lost lost lasts db) :=
  (command_spec fun _ => rfl).weaken (fun _ h => h) (fun _ _ h => h.2) fun _ _ h => h

omit [DecidableEq N] in
theorem commit_spec {outside : ε} :
    Cmd.Triple (At lasts db [((none : Option N), s)]) (commit lost outside) (fun _ => At lasts db [])
      (Lost lost lasts s) :=
  (command_spec fun _ => rfl).weaken (fun _ h => h) (fun _ _ h => h.2) fun _ _ h => h

omit [DecidableEq N] in
theorem rollback_spec {outside : ε} :
    Cmd.Triple (At lasts db [((none : Option N), s)]) (rollback lost outside) (fun _ => At lasts s [])
      (Lost lost lasts s) :=
  (command_spec fun _ => rfl).weaken (fun _ h => h) (fun _ _ h => h.2) fun _ _ h => h

end Conn

end Zohar.Lib
