/-
Readers over a stream that has not arrived in full. A reader answers on the items that are there: a
value, an error, or an error that only says that the items ran out. The answers that count are the
ones that later items cannot change; a reader all of whose values and errors are such is `Stable`.
A stable reader that gives back what a writer wrote says "incomplete" on every strict prefix of it.
-/
import Mathlib.Tactic

namespace Zohar.Lib

variable {τ ε κ α β : Type}

/-- A position in a stream, and the items after it as far as they have arrived. -/
structure Cursor (τ : Type) where
  pos : Nat
  rest : List τ
  deriving DecidableEq, Repr

/-- The same position when more items have arrived. -/
def Cursor.more (c : Cursor τ) (later : List τ) : Cursor τ := ⟨c.pos, c.rest ++ later⟩

@[simp] theorem Cursor.more_pos (c : Cursor τ) (later : List τ) : (c.more later).pos = c.pos := rfl
@[simp] theorem Cursor.more_rest (c : Cursor τ) (later : List τ) : (c.more later).rest = c.rest ++ later := rfl

/-- The cursor after `n` items. -/
def Cursor.advance (c : Cursor τ) (n : Nat) : Cursor τ := ⟨c.pos + n, c.rest.drop n⟩

/-- A computation that moves a cursor on, or fails. -/
abbrev Reader (τ ε α : Type) := StateT (Cursor τ) (Except ε) α

theorem Reader.bind_apply (r : Reader τ ε α) (f : α → Reader τ ε β) (c : Cursor τ) :
    (r >>= f) c = match r c with
      | .ok (a, c') => f a c'
      | .error e => .error e := by
  change (r c >>= fun x => f x.1 x.2) = _
  cases r c <;> rfl

theorem Reader.bind_eq_ok {r : Reader τ ε α} {f : α → Reader τ ε β} {c : Cursor τ} {x : β × Cursor τ} :
    (r >>= f) c = .ok x ↔ ∃ a c', r c = .ok (a, c') ∧ f a c' = .ok x := by
  rw [Reader.bind_apply]
  cases r c with
  | error e => simp
  | ok y => obtain ⟨a, c'⟩ := y; simp

theorem Reader.bind_eq_error {r : Reader τ ε α} {f : α → Reader τ ε β} {c : Cursor τ} {e : ε} :
    (r >>= f) c = .error e ↔ r c = .error e ∨ ∃ a c', r c = .ok (a, c') ∧ f a c' = .error e := by
  rw [Reader.bind_apply]
  cases r c with
  | error e => simp
  | ok y => obtain ⟨a, c'⟩ := y; simp

/-! ## Answers that stand -/

section Stable

variable (incomplete : ε → Bool)

/-- The reader moves the cursor on over items that are there, and neither a value nor an error other than
"incomplete" changes when more items arrive. -/
structure Stable (r : Reader τ ε α) : Prop where
  within : ∀ {c a c'}, r c = .ok (a, c') → ∃ n, n ≤ c.rest.length ∧ c' = c.advance n
  ok : ∀ {c a c'}, r c = .ok (a, c') → ∀ later, r (c.more later) = .ok (a, c'.more later)
  error : ∀ {c e}, r c = .error e → incomplete e = false → ∀ later, r (c.more later) = .error e

variable {incomplete}

theorem Stable.pure (a : α) : Stable incomplete (pure a : Reader τ ε α) where
  within h := by cases h; exact ⟨0, Nat.zero_le _, by simp [Cursor.advance]⟩
  ok h later := by cases h; rfl
  error h := by cases h

/-- A failure that reports nothing but the position. -/
theorem Stable.throwAt (e : Nat → ε) : Stable incomplete (fun c => .error (e c.pos) : Reader τ ε α) where
  within h := by cases h
  ok h := by cases h
  error h _ _ := by cases h; rfl

theorem Stable.bind {r : Reader τ ε α} {f : α → Reader τ ε β} (hr : Stable incomplete r)
    (hf : ∀ a, Stable incomplete (f a)) : Stable incomplete (r >>= f) where
  within h := by
    obtain ⟨a, c', h1, h2⟩ := Reader.bind_eq_ok.1 h
    obtain ⟨n, hn, rfl⟩ := hr.within h1
    obtain ⟨m, hm, rfl⟩ := (hf a).within h2
    simp only [Cursor.advance, List.length_drop] at hm ⊢
    exact ⟨n + m, by omega, by rw [List.drop_drop, Nat.add_assoc]⟩
  ok h later := by
    obtain ⟨a, c', h1, h2⟩ := Reader.bind_eq_ok.1 h
    exact Reader.bind_eq_ok.2 ⟨a, _, hr.ok h1 later, (hf a).ok h2 later⟩
  error h he later := by
    rcases Reader.bind_eq_error.1 h with h1 | ⟨a, c', h1, h2⟩
    · exact Reader.bind_eq_error.2 (.inl (hr.error h1 he later))
    · exact Reader.bind_eq_error.2 (.inr ⟨a, _, hr.ok h1 later, (hf a).error h2 he later⟩)

theorem Stable.map {r : Reader τ ε α} (hr : Stable incomplete r) (f : α → β) : Stable incomplete (f <$> r) := by
  rw [← bind_pure_comp]
  exact hr.bind fun a => .pure (f a)

end Stable

/-! ## Single items and blocks -/

/-- The next item. -/
def item (eof : ε) : Reader τ ε τ := fun c =>
  match c.rest with
  | [] => .error eof
  | x :: xs => .ok (x, ⟨c.pos + 1, xs⟩)

/-- The next `n` items. -/
def items (eof : ε) (n : Nat) : Reader τ ε (List.Vector τ n) := fun c =>
  if h : n ≤ c.rest.length then .ok (⟨c.rest.take n, List.length_take_of_le h⟩, c.advance n) else .error eof

/-- Converts the value that was read; a conversion that fails reports where the value began. -/
def tryMap (f : Nat → α → Except ε β) (r : Reader τ ε α) : Reader τ ε β := fun c =>
  match r c with
  | .error e => .error e
  | .ok (a, c') => match f c.pos a with
    | .error e => .error e
    | .ok b => .ok (b, c')

theorem tryMap_eq_ok {f : Nat → α → Except ε β} {r : Reader τ ε α} {c : Cursor τ} {x : β × Cursor τ} :
    tryMap f r c = .ok x ↔ ∃ a, r c = .ok (a, x.2) ∧ f c.pos a = .ok x.1 := by
  obtain ⟨b, c'⟩ := x
  simp only [tryMap]
  cases r c with
  | error e => simp
  | ok y =>
    obtain ⟨a, c1⟩ := y
    cases hf : f c.pos a with
    | error e => simp [hf]
    | ok b' => simp [hf, and_comm]

theorem tryMap_eq_error {f : Nat → α → Except ε β} {r : Reader τ ε α} {c : Cursor τ} {e : ε} :
    tryMap f r c = .error e ↔ r c = .error e ∨ ∃ a c', r c = .ok (a, c') ∧ f c.pos a = .error e := by
  simp only [tryMap]
  cases r c with
  | error e => simp
  | ok y =>
    obtain ⟨a, c1⟩ := y
    cases hf : f c.pos a with
    | error e => simp [hf]
    | ok b' => simp [hf]

section Items

variable {incomplete : ε → Bool} {eof : ε}

theorem item_stable (he : incomplete eof = true) : Stable incomplete (item eof : Reader τ ε τ) where
  within {c a c'} h := by
    simp only [item] at h
    split at h
    · cases h
    · rename_i x xs hc
      cases h
      exact ⟨1, by simp [hc], by simp [Cursor.advance, hc]⟩
  ok {c a c'} h later := by
    simp only [item] at h
    split at h
    · cases h
    · rename_i x xs hc
      cases h
      simp [item, hc, Cursor.more]
  error {c e} h hne later := by
    simp only [item] at h
    split at h
    · cases h; rw [he] at hne; cases hne
    · cases h

theorem items_stable (he : incomplete eof = true) (n : Nat) :
    Stable incomplete (items eof n : Reader τ ε (List.Vector τ n)) where
  within {c a c'} h := by
    simp only [items] at h
    split at h
    · rename_i hn; cases h; exact ⟨n, hn, rfl⟩
    · cases h
  ok {c a c'} h later := by
    simp only [items] at h
    split at h
    · rename_i hn
      cases h
      have hn' : n ≤ (c.rest ++ later).length := by simp; omega
      have htake : (c.rest ++ later).take n = c.rest.take n := List.take_append_of_le_length hn
      have hdrop : (c.rest ++ later).drop n = c.rest.drop n ++ later := List.drop_append_of_le_length hn
      simp only [items, Cursor.more, Cursor.advance, dif_pos hn', htake, hdrop]
    · cases h
  error {c e} h hne later := by
    simp only [items] at h
    split at h
    · cases h
    · cases h; rw [he] at hne; cases hne

theorem Stable.tryMap {r : Reader τ ε α} (hr : Stable incomplete r) (f : Nat → α → Except ε β) :
    Stable incomplete (tryMap f r) where
  within h := by
    obtain ⟨a, ha, -⟩ := tryMap_eq_ok.1 h
    exact hr.within ha
  ok h later := by
    obtain ⟨a, ha, hf⟩ := tryMap_eq_ok.1 h
    exact tryMap_eq_ok.2 ⟨a, hr.ok ha later, hf⟩
  error h hne later := by
    rcases tryMap_eq_error.1 h with h1 | ⟨a, c', h1, hf⟩
    · exact tryMap_eq_error.2 (.inl (hr.error h1 hne later))
    · exact tryMap_eq_error.2 (.inr ⟨a, _, hr.ok h1 later, hf⟩)

end Items

/-! ## Alternatives -/

/-- Tries the alternatives in order from the same place, and returns the errors of all of them if none reads. -/
def firstOf (combine : Nat → List (κ × ε) → ε) : List (κ × Reader τ ε α) → List (κ × ε) → Reader τ ε α
  | [], errs => fun c => .error (combine c.pos errs)
  | (k, r) :: rs, errs => fun c =>
    match r c with
    | .ok x => .ok x
    | .error e => firstOf combine rs (errs ++ [(k, e)]) c

section Alternatives

variable {incomplete : ε → Bool} {combine : Nat → List (κ × ε) → ε}

theorem firstOf_cons_ok {k : κ} {r : Reader τ ε α} {rs : List (κ × Reader τ ε α)} {errs : List (κ × ε)}
    {c : Cursor τ} {x : α × Cursor τ} (h : r c = .ok x) : firstOf combine ((k, r) :: rs) errs c = .ok x := by
  simp only [firstOf, h]

theorem firstOf_cons_error {k : κ} {r : Reader τ ε α} {rs : List (κ × Reader τ ε α)} {errs : List (κ × ε)}
    {c : Cursor τ} {e : ε} (h : r c = .error e) :
    firstOf combine ((k, r) :: rs) errs c = firstOf combine rs (errs ++ [(k, e)]) c := by
  simp only [firstOf, h]

/-- When the first reader only lacks items, the second one does not read. -/
def Excludes (incomplete : ε → Bool) (r r' : Reader τ ε α) : Prop :=
  ∀ c e, r c = .error e → incomplete e = true → ∃ e', r' c = .error e'

theorem firstOf_error {rs : List (κ × Reader τ ε α)} {c : Cursor τ} (h : ∀ a ∈ rs, ∃ e, a.2 c = .error e) :
    ∀ errs, ∃ e, firstOf combine rs errs c = .error e := by
  induction rs with
  | nil => exact fun errs => ⟨_, rfl⟩
  | cons a rs ih =>
    intro errs
    obtain ⟨e, he⟩ := h a List.mem_cons_self
    rw [show a :: rs = (a.1, a.2) :: rs from rfl, firstOf_cons_error he]
    exact ih (fun b hb => h b (List.mem_cons_of_mem _ hb)) _

/-- The errors met so far are among those that the whole answers with. -/
theorem firstOf_complete (hcomb : ∀ p es, incomplete (combine p es) = es.any fun x => incomplete x.2) :
    ∀ {rs : List (κ × Reader τ ε α)} {errs : List (κ × ε)} {c : Cursor τ} {e : ε},
      firstOf combine rs errs c = .error e → incomplete e = false → ∀ x ∈ errs, incomplete x.2 = false
  | [], errs, c, e, h, he => by
    cases h
    rw [hcomb, List.any_eq_false] at he
    exact fun x hx => by simpa using he x hx
  | (k, r) :: rs, errs, c, e, h, he => by
    intro x hx
    simp only [firstOf] at h
    split at h
    · cases h
    · exact firstOf_complete hcomb h he x (List.mem_append_left _ hx)

theorem Stable.firstOf (hcomb : ∀ p es, incomplete (combine p es) = es.any fun x => incomplete x.2)
    {rs : List (κ × Reader τ ε α)} (hs : ∀ a ∈ rs, Stable incomplete a.2)
    (hx : rs.Pairwise fun a b => Excludes incomplete a.2 b.2) (errs : List (κ × ε)) :
    Stable incomplete (firstOf combine rs errs) := by
  induction rs generalizing errs with
  | nil => exact { within := nofun, ok := nofun, error := fun h _ _ => by cases h; rfl }
  | cons a rs ih =>
    obtain ⟨k, r⟩ := a
    have hr : Stable incomplete r := hs _ List.mem_cons_self
    obtain ⟨hfirst, hrest⟩ := List.pairwise_cons.1 hx
    have hrs := ih (fun b hb => hs b (List.mem_cons_of_mem _ hb)) hrest
    refine { within := ?_, ok := ?_, error := ?_ }
    · intro c x c' h
      simp only [Lib.firstOf] at h
      split at h
      · rename_i y hy; cases h; exact hr.within hy
      · exact (hrs _).within h
    · intro c x c' h later
      cases hc : r c with
      | ok y => rw [firstOf_cons_ok hc] at h; cases h; exact firstOf_cons_ok (hr.ok hc later)
      | error e =>
        rw [firstOf_cons_error hc] at h
        -- an alternative that only lacks items leaves no other to read, so this error stands
        have he : incomplete e = false := by
          by_contra hne
          have hall : ∀ b ∈ rs, ∃ e', b.2 c = .error e' := fun b hb => hfirst b hb c e hc (by simpa using hne)
          obtain ⟨e', he'⟩ := firstOf_error hall (errs ++ [(k, e)])
          rw [he'] at h; cases h
        rw [firstOf_cons_error (hr.error hc he later)]
        exact (hrs _).ok h later
    · intro c e h hne later
      cases hc : r c with
      | ok y => rw [firstOf_cons_ok hc] at h; cases h
      | error e1 =>
        rw [firstOf_cons_error hc] at h
        have he1 : incomplete e1 = false := firstOf_complete hcomb h hne (k, e1) (by simp)
        rw [firstOf_cons_error (hr.error hc he1 later)]
        exact (hrs _).error h hne later

end Alternatives

/-! ## Readers that take something -/

/-- The reader never gives a value without moving on. -/
def Consumes (r : Reader τ ε α) : Prop := ∀ c a c', r c = .ok (a, c') → c.pos < c'.pos

theorem item_consumes {eof : ε} : Consumes (item eof : Reader τ ε τ) := by
  intro c a c' h
  simp only [item] at h
  split at h
  · cases h
  · cases h; exact Nat.lt_succ_self _

theorem Consumes.bind_left {incomplete : ε → Bool} {r : Reader τ ε α} {f : α → Reader τ ε β} (hr : Consumes r)
    (hf : ∀ a, Stable incomplete (f a)) : Consumes (r >>= f) := by
  intro c b c' h
  obtain ⟨a, c1, h1, h2⟩ := Reader.bind_eq_ok.1 h
  obtain ⟨n, -, rfl⟩ := (hf a).within h2
  have := hr c a c1 h1
  simp only [Cursor.advance]
  omega

theorem Consumes.firstOf {combine : Nat → List (κ × ε) → ε} {rs : List (κ × Reader τ ε α)}
    (hs : ∀ a ∈ rs, Consumes a.2) {errs : List (κ × ε)} : Consumes (firstOf combine rs errs) := by
  induction rs generalizing errs with
  | nil => intro c a c' h; cases h
  | cons x rs ih =>
    intro c a c' h
    simp only [Lib.firstOf] at h
    split at h
    · rename_i y hy; cases h; exact hs _ List.mem_cons_self _ _ _ hy
    · exact ih (fun b hb => hs b (List.mem_cons_of_mem _ hb)) _ _ _ h

/-! ## Reading back what was written -/

/-- The reader gives `a` for these items wherever they stand, and leaves what follows them. -/
def ReadsBack (r : Reader τ ε α) (written : List τ) (a : α) : Prop :=
  ∀ pos later, r ⟨pos, written ++ later⟩ = .ok (a, ⟨pos + written.length, later⟩)

theorem ReadsBack.pure (a : α) : ReadsBack (pure a : Reader τ ε α) [] a := fun _ _ => rfl

theorem ReadsBack.bind {r : Reader τ ε α} {f : α → Reader τ ε β} {xs ys : List τ} {a : α} {b : β}
    (hr : ReadsBack r xs a) (hf : ReadsBack (f a) ys b) : ReadsBack (r >>= f) (xs ++ ys) b := by
  intro pos later
  have h1 := hr pos (ys ++ later)
  have h2 := hf (pos + xs.length) later
  rw [Reader.bind_apply, List.append_assoc, h1]
  simp only [h2, List.length_append, Nat.add_assoc]

theorem ReadsBack.map {r : Reader τ ε α} {xs : List τ} {a : α} (hr : ReadsBack r xs a) (f : α → β) :
    ReadsBack (f <$> r) xs (f a) := by
  rw [← bind_pure_comp, ← List.append_nil xs]
  exact hr.bind (.pure (f a))

theorem item_readsBack (eof : ε) (x : τ) : ReadsBack (item eof) [x] x := fun _ _ => rfl

theorem items_readsBack (eof : ε) {n : Nat} (xs : List.Vector τ n) : ReadsBack (items eof n) xs.toList xs := by
  intro pos later
  have hn : xs.toList.length = n := xs.2
  have hle : n ≤ (xs.toList ++ later).length := by simp
  have htake : (xs.toList ++ later).take n = xs.toList := List.take_left' hn
  have hdrop : (xs.toList ++ later).drop n = later := List.drop_left' hn
  simp only [items, dif_pos hle, Cursor.advance, htake, hdrop, hn]
  rfl

theorem ReadsBack.tryMap {r : Reader τ ε α} {xs : List τ} {a : α} (hr : ReadsBack r xs a) {f : Nat → α → Except ε β}
    {b : β} (h : ∀ pos, f pos a = .ok b) : ReadsBack (tryMap f r) xs b :=
  fun pos later => tryMap_eq_ok.2 ⟨a, hr pos later, h pos⟩

/-- A stable reader that reads a writer's items back lacks items on every strict prefix of them. -/
theorem ReadsBack.incomplete_of_prefix {incomplete : ε → Bool} {r : Reader τ ε α} {xs part : List τ} {a : α}
    (hr : Stable incomplete r) (hb : ReadsBack r xs a) (hp : part <+: xs) (hne : part ≠ xs) (pos : Nat) :
    ∃ e, r ⟨pos, part⟩ = .error e ∧ incomplete e = true := by
  obtain ⟨later, rfl⟩ := hp
  have hwhole := hb pos []
  rw [List.append_nil] at hwhole
  cases hc : r ⟨pos, part⟩ with
  | ok y =>
    obtain ⟨a', c'⟩ := y
    have h := hr.ok hc later
    rw [Cursor.more, hwhole] at h
    have hrest : c'.rest ++ later = [] := by simpa [Cursor.more] using (congrArg (·.2.rest) (Except.ok.inj h)).symm
    exact absurd (by simp [(List.append_eq_nil_iff.1 hrest).2]) hne
  | error e =>
    refine ⟨e, rfl, ?_⟩
    by_contra hne'
    have h := hr.error hc (by simpa using hne') later
    rw [Cursor.more, hwhole] at h
    cases h

/-! ## Writing back what was read -/

/-- The items that the reader takes are those that are written for its value. -/
def WritesBack (r : Reader τ ε α) (written : α → List τ) : Prop :=
  ∀ c a c', r c = .ok (a, c') → c.rest = written a ++ c'.rest ∧ c'.pos = c.pos + (written a).length

theorem item_writesBack (eof : ε) : WritesBack (item eof : Reader τ ε τ) fun x => [x] := by
  intro c a c' h
  simp only [item] at h
  split at h
  · cases h
  · rename_i x xs hc
    cases h
    exact ⟨hc, rfl⟩

theorem items_writesBack (eof : ε) (n : Nat) :
    WritesBack (items eof n : Reader τ ε (List.Vector τ n)) List.Vector.toList := by
  intro c a c' h
  simp only [items] at h
  split at h
  · cases h
    constructor
    · exact (List.take_append_drop n c.rest).symm
    · exact congrArg (c.pos + ·) (List.Vector.toList_length _).symm
  · cases h

theorem WritesBack.map {r : Reader τ ε α} {written : α → List τ} (hr : WritesBack r written) (f : α → β)
    {written' : β → List τ} (hw : ∀ a, written' (f a) = written a) : WritesBack (f <$> r) written' := by
  intro c b c' h
  rw [← bind_pure_comp] at h
  obtain ⟨a, c1, ha, hb⟩ := Reader.bind_eq_ok.1 h
  cases hb
  rw [hw a]
  exact hr c a c' ha

theorem WritesBack.tryMap {r : Reader τ ε α} {written : α → List τ} (hr : WritesBack r written)
    {f : Nat → α → Except ε β} {written' : β → List τ} (hw : ∀ {pos a b}, f pos a = .ok b → written' b = written a) :
    WritesBack (tryMap f r) written' := by
  intro c b c' h
  obtain ⟨a, ha, hb⟩ := tryMap_eq_ok.1 h
  rw [hw hb]
  exact hr c a c' ha

/-! ## Little-endian numbers -/

/-- The `n` low bytes of a number, the lowest first. -/
def leBytes : Nat → Nat → List UInt8
  | 0, _ => []
  | n + 1, x => UInt8.ofNat (x % 256) :: leBytes n (x / 256)

def ofLeBytes : List UInt8 → Nat
  | [] => 0
  | b :: bs => b.toNat + 256 * ofLeBytes bs

@[simp] theorem leBytes_length : ∀ n x, (leBytes n x).length = n
  | 0, _ => rfl
  | n + 1, x => by simp [leBytes, leBytes_length n]

theorem ofLeBytes_leBytes : ∀ {n x : Nat}, x < 256 ^ n → ofLeBytes (leBytes n x) = x
  | 0, x, h => by simp at h; simp [leBytes, ofLeBytes, h]
  | n + 1, x, h => by
    have hdiv : x / 256 < 256 ^ n := Nat.div_lt_of_lt_mul (by rw [Nat.pow_succ] at h; omega)
    have hbyte : (UInt8.ofNat (x % 256)).toNat = x % 256 := by simp [UInt8.toNat_ofNat']
    rw [leBytes, ofLeBytes, ofLeBytes_leBytes hdiv, hbyte]
    omega

theorem ofLeBytes_lt : ∀ bs : List UInt8, ofLeBytes bs < 256 ^ bs.length
  | [] => Nat.one_pos
  | b :: bs => by
    have hb := b.toNat_lt
    have hbs := ofLeBytes_lt bs
    rw [ofLeBytes, List.length_cons, Nat.pow_succ]
    omega

theorem leBytes_ofLeBytes : ∀ bs : List UInt8, leBytes bs.length (ofLeBytes bs) = bs
  | [] => rfl
  | b :: bs => by
    have hb := b.toNat_lt
    have hmod : (b.toNat + 256 * ofLeBytes bs) % 256 = b.toNat := by omega
    have hdiv : (b.toNat + 256 * ofLeBytes bs) / 256 = ofLeBytes bs := by omega
    rw [ofLeBytes, List.length_cons, leBytes, hmod, hdiv, leBytes_ofLeBytes bs, UInt8.ofNat_toNat]

end Zohar.Lib
