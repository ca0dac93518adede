/-
Reading a text into pieces by the longest match, with one item of lookahead: a piece goes on for as long as its machine
does. `lex_eq_some_iff` says which lists of pieces are read, and `eq_of_visible_eq` that two readings of one text with
the same visible pieces are one reading, as long as the other pieces are single items.
-/
import Mathlib.Tactic
import Mathlib.Data.List.Chain

namespace Zohar.Lib

/-- A machine that reads one piece: what its first item leads to, what a further item leads to, and where it may end. -/
structure Munch (σ α : Type) where
  start : α → Option σ
  next : σ → α → Option σ
  accepts : σ → Bool

namespace Munch

variable {σ α : Type}

/-- The state a piece ended in, and its text. -/
structure Piece (σ α : Type) where
  state : σ
  text : List α
  deriving DecidableEq, Repr

/-- The text that the pieces make up. -/
def flat (pieces : List (Piece σ α)) : List α := pieces.flatMap Piece.text

@[simp] theorem flat_nil : flat ([] : List (Piece σ α)) = [] := rfl

@[simp] theorem flat_cons (p : Piece σ α) (pieces : List (Piece σ α)) :
    flat (p :: pieces) = p.text ++ flat pieces := rfl

@[simp] theorem flat_append (pieces later : List (Piece σ α)) : flat (pieces ++ later) = flat pieces ++ flat later :=
  List.flatMap_append

variable (m : Munch σ α)

/-- The state after further items of one piece. -/
def run : σ → List α → Option σ
  | s, [] => some s
  | s, c :: text => (m.next s c).bind fun s' => run s' text

/-- Reads on in state `s`, with what the piece under way holds so far. -/
def lexFrom (s : σ) (read : List α) : List α → Option (List (Piece σ α))
  | [] => if m.accepts s then some [⟨s, read⟩] else none
  | c :: text =>
    match m.next s c with
    | some s' => lexFrom s' (read ++ [c]) text
    | none =>
      if m.accepts s then (m.start c).bind fun s' => (lexFrom s' [c] text).map (⟨s, read⟩ :: ·)
      else none

/-- The pieces of a text, if it is made up of pieces. -/
def lex : List α → Option (List (Piece σ α))
  | [] => some []
  | c :: text => (m.start c).bind fun s => m.lexFrom s [c] text

/-- The machine reads the text of the piece and may end there. -/
def Valid (p : Piece σ α) : Prop :=
  ∃ c text s, p.text = c :: text ∧ m.start c = some s ∧ m.run s text = some p.state ∧ m.accepts p.state = true

/-- The machine of `p` does not go on with what `q` begins with. -/
def Stops (p q : Piece σ α) : Prop := ∀ c ∈ q.text.head?, m.next p.state c = none

/-- The state is that of pieces of one item: the machine neither goes on from it nor gets there by going on. -/
def Alone (s : σ) : Prop := (∀ c, m.next s c = none) ∧ ∀ s' c, m.next s' c ≠ some s

instance (p q : Piece σ α) : Decidable (m.Stops p q) :=
  decidable_of_iff (q.text.head?.all fun c => (m.next p.state c).isNone) (by
    unfold Stops
    cases q.text.head? with
    | none => simp
    | some c => simp)

variable {m}

/-! ## Runs of one piece -/

theorem run_append {s s' : σ} {text : List α} (later : List α) (h : m.run s text = some s') :
    m.run s (text ++ later) = m.run s' later := by
  induction text generalizing s with
  | nil =>
    rw [run, Option.some.injEq] at h
    rw [h, List.nil_append]
  | cons c text ih =>
    rw [run, Option.bind_eq_some_iff] at h
    obtain ⟨s₁, hnext, hrun⟩ := h
    rw [List.cons_append, run, hnext]
    exact ih hrun

/-- What the states before a step share with the state after it holds at the beginning of a run, if at its end. -/
theorem run_back {D : σ → Prop} (hback : ∀ s c s', m.next s c = some s' → D s' → D s) {s s' : σ} {text : List α}
    (h : m.run s text = some s') (hD : D s') : D s := by
  induction text generalizing s with
  | nil =>
    rw [run, Option.some.injEq] at h
    exact h ▸ hD
  | cons c text ih =>
    rw [run, Option.bind_eq_some_iff] at h
    obtain ⟨s₁, hnext, hrun⟩ := h
    exact hback s c s₁ hnext (ih hrun)

/-- A state that never goes on is the whole run. -/
theorem run_still {s s' : σ} {text : List α} (hstill : ∀ c, m.next s c = none) (h : m.run s text = some s') :
    text = [] ∧ s' = s := by
  cases text with
  | nil =>
    rw [run, Option.some.injEq] at h
    exact ⟨rfl, h.symm⟩
  | cons c text =>
    rw [run, hstill] at h
    cases h

/-- A run into a state for pieces of one item goes no step. -/
theorem Alone.run_eq {s s' : σ} {text : List α} (hs : m.Alone s') (h : m.run s text = some s') : s = s' :=
  run_back (D := (· = s')) (fun s₁ c _ hnext heq => absurd (heq ▸ hnext) (hs.2 s₁ c)) h rfl

theorem Valid.alone {p : Piece σ α} (hp : m.Valid p) (hs : m.Alone p.state) :
    ∃ c, p.text = [c] ∧ m.start c = some p.state := by
  obtain ⟨c, text, s, htext, hstart, hrun, -⟩ := hp
  have hs₁ : s = p.state := hs.run_eq hrun
  subst hs₁
  exact ⟨c, by rw [htext, (run_still hs.1 hrun).1], hstart⟩

/-- A valid piece that begins as a piece of one item does is that piece. -/
theorem Valid.eq_of_alone {p q : Piece σ α} (hp : m.Valid p) (hq : m.Valid q) (hhead : p.text.head? = q.text.head?)
    (hs : m.Alone p.state) : q = p := by
  obtain ⟨c, htext, hstart⟩ := hp.alone hs
  obtain ⟨d, text, s, htext', hstart', hrun, -⟩ := hq
  rw [htext, htext', List.head?_cons, List.head?_cons, Option.some.injEq] at hhead
  subst hhead
  rw [hstart, Option.some.injEq] at hstart'
  subst hstart'
  obtain ⟨rfl, hstate⟩ := run_still hs.1 hrun
  obtain ⟨state, _⟩ := q
  obtain ⟨state', _⟩ := p
  cases htext
  cases htext'
  cases hstate
  rfl

theorem Valid.text_ne_nil {p : Piece σ α} (h : m.Valid p) : p.text ≠ [] := by
  obtain ⟨c, text, s, htext, -, -, -⟩ := h
  rw [htext]
  exact List.cons_ne_nil c text

/-! ## Readings -/

theorem lexFrom_run {s s' : σ} {text : List α} (read rest : List α) (h : m.run s text = some s') :
    m.lexFrom s read (text ++ rest) = m.lexFrom s' (read ++ text) rest := by
  induction text generalizing s read with
  | nil =>
    rw [run, Option.some.injEq] at h
    rw [h, List.nil_append, List.append_nil]
  | cons c text ih =>
    rw [run, Option.bind_eq_some_iff] at h
    obtain ⟨s₁, hnext, hrun⟩ := h
    rw [List.cons_append, lexFrom, hnext]
    exact (ih (read ++ [c]) hrun).trans (by rw [List.append_assoc, List.singleton_append])

/-- Valid pieces between which the machine stops are read as they are. -/
theorem lexFrom_flat {s : σ} {read : List α} {pieces : List (Piece σ α)} (haccepts : m.accepts s = true)
    (hvalid : ∀ p ∈ pieces, m.Valid p) (hchain : ((⟨s, read⟩ : Piece σ α) :: pieces).IsChain m.Stops) :
    m.lexFrom s read (flat pieces) = some (⟨s, read⟩ :: pieces) := by
  induction pieces generalizing s read with
  | nil => rw [flat_nil, lexFrom, if_pos haccepts]
  | cons p pieces ih =>
    obtain ⟨c, text, s₁, htext, hstart, hrun, hend⟩ := hvalid p List.mem_cons_self
    rw [List.isChain_cons_cons] at hchain
    have hstop : m.next s c = none := hchain.1 c (by rw [htext]; rfl)
    have hrest : m.lexFrom s₁ [c] (text ++ flat pieces) = some (p :: pieces) := by
      rw [lexFrom_run [c] (flat pieces) hrun, List.singleton_append, ← htext]
      exact ih hend (fun q hq => hvalid q (List.mem_cons_of_mem p hq)) hchain.2
    rw [flat_cons, htext, List.cons_append, lexFrom, hstop]
    simp only [haccepts, if_true, hstart, Option.bind_some, hrest, Option.map_some]

theorem lexFrom_sound {s : σ} {read text : List α} {pieces : List (Piece σ α)}
    (h : m.lexFrom s read text = some pieces) :
    ∃ more s' rest, pieces = ⟨s', read ++ more⟩ :: rest ∧ m.run s more = some s' ∧ m.accepts s' = true ∧
      text = more ++ flat rest ∧ (∀ p ∈ rest, m.Valid p) ∧ pieces.IsChain m.Stops := by
  induction text generalizing s read pieces with
  | nil =>
    rw [lexFrom] at h
    split at h
    case isTrue haccepts =>
      cases h
      exact ⟨[], s, [], by rw [List.append_nil], rfl, haccepts, rfl, by simp, List.isChain_singleton _⟩
    case isFalse => cases h
  | cons c text ih =>
    rw [lexFrom] at h
    cases hnext : m.next s c with
    | some s₁ =>
      rw [hnext] at h
      obtain ⟨more, s', rest, hpieces, hrun, haccepts, htext, hvalid, hchain⟩ := ih h
      refine ⟨c :: more, s', rest, ?_, ?_, haccepts, ?_, hvalid, hchain⟩
      · rw [hpieces, List.append_assoc, List.singleton_append]
      · rw [run, hnext]
        exact hrun
      · rw [htext, List.cons_append]
    | none =>
      rw [hnext] at h
      simp only [] at h
      split at h
      case isFalse => cases h
      case isTrue haccepts =>
        rw [Option.bind_eq_some_iff] at h
        obtain ⟨s₁, hstart, h⟩ := h
        rw [Option.map_eq_some_iff] at h
        obtain ⟨later, hlater, rfl⟩ := h
        obtain ⟨more, s', rest, hpieces, hrun, hend, htext, hvalid, hchain⟩ := ih hlater
        -- the piece under way ends here, and the next one begins with `c`
        have hfirst : m.Valid ⟨s', c :: more⟩ := ⟨c, more, s₁, rfl, hstart, hrun, hend⟩
        refine ⟨[], s, later, by rw [List.append_nil], rfl, haccepts, ?_, ?_, ?_⟩
        · rw [htext, hpieces, flat_cons, List.nil_append, List.singleton_append, List.cons_append]
        · rw [hpieces, List.singleton_append]
          exact List.forall_mem_cons.2 ⟨hfirst, hvalid⟩
        · rw [hpieces] at hchain ⊢
          rw [List.isChain_cons_cons]
          refine ⟨?_, hchain⟩
          intro d hd
          rw [List.singleton_append, List.head?_cons, Option.mem_def, Option.some.injEq] at hd
          exact hd ▸ hnext

/-- The readings of a text are the valid pieces that make it up and between which the machine stops. -/
theorem lex_eq_some_iff {text : List α} {pieces : List (Piece σ α)} :
    m.lex text = some pieces ↔ flat pieces = text ∧ (∀ p ∈ pieces, m.Valid p) ∧ pieces.IsChain m.Stops := by
  constructor
  · intro h
    cases text with
    | nil =>
      rw [lex, Option.some.injEq] at h
      subst h
      exact ⟨rfl, by simp, List.isChain_nil⟩
    | cons c text =>
      rw [lex, Option.bind_eq_some_iff] at h
      obtain ⟨s, hstart, h⟩ := h
      obtain ⟨more, s', rest, rfl, hrun, hend, htext, hvalid, hchain⟩ := lexFrom_sound h
      refine ⟨?_, ?_, hchain⟩
      · rw [flat_cons, List.singleton_append, List.cons_append, ← htext]
      · exact List.forall_mem_cons.2 ⟨⟨c, more, s, rfl, hstart, hrun, hend⟩, hvalid⟩
  · rintro ⟨rfl, hvalid, hchain⟩
    cases pieces with
    | nil => rfl
    | cons p pieces =>
      obtain ⟨c, text, s, htext, hstart, hrun, hend⟩ := hvalid p List.mem_cons_self
      rw [flat_cons, htext, List.cons_append, lex, hstart, Option.bind_some, lexFrom_run [c] _ hrun,
        List.singleton_append,
        ← htext]
      exact lexFrom_flat hend (fun q hq => hvalid q (List.mem_cons_of_mem p hq)) hchain

/-! ## Visible pieces -/

/-- The pieces whose states are visible, if the text can be read. -/
def visibles (m : Munch σ α) (visible : σ → Bool) (text : List α) : Option (List (Piece σ α)) :=
  (m.lex text).map (List.filter fun p => visible p.state)

/-- A hidden piece by itself, or part of a longer one that is hidden or may not end there. -/
structure Blank (m : Munch σ α) (visible : σ → Bool) (c : α) : Prop where
  start : ∃ s, m.start c = some s ∧ m.accepts s = true ∧ visible s = false ∧ ∀ d, m.next s d = none
  next : ∀ s s', m.next s c = some s' →
    m.accepts s' = m.accepts s ∧ (m.accepts s = true → visible s = false ∧ visible s' = false)

section Visible

variable {visible : σ → Bool}

theorem lexFrom_still {s : σ} (read text : List α) (haccepts : m.accepts s = true) (hstill : ∀ c, m.next s c = none) :
    m.lexFrom s read text = (m.lex text).map (⟨s, read⟩ :: ·) := by
  cases text with
  | nil => rw [lexFrom, if_pos haccepts, lex, Option.map_some]
  | cons c text =>
    rw [lexFrom, hstill c, lex]
    simp only [if_pos haccepts, Option.map_bind]
    rfl

/-- A blank in front of a text changes nothing. -/
theorem Blank.visibles_cons {c : α} (h : m.Blank visible c) (text : List α) :
    m.visibles visible (c :: text) = m.visibles visible text := by
  obtain ⟨s, hstart, haccepts, hhidden, hstill⟩ := h.start
  unfold visibles
  rw [lex, hstart, Option.bind_some, lexFrom_still [c] text haccepts hstill, Option.map_map]
  apply Option.map_congr
  intro pieces _
  rw [Function.comp_apply, List.filter_cons_of_neg (by simp [hhidden])]

theorem Blank.lexFrom_append {c : α} (h : m.Blank visible c) (s : σ) (read text : List α) :
    (m.lexFrom s read (text ++ [c])).map (List.filter fun p => visible p.state) =
      (m.lexFrom s read text).map (List.filter fun p => visible p.state) := by
  induction text generalizing s read with
  | nil =>
    rw [List.nil_append, lexFrom, lexFrom]
    cases hnext : m.next s c with
    | none =>
      -- the blank is a piece of its own
      obtain ⟨s₀, hstart, haccepts, hhidden, -⟩ := h.start
      simp only []
      split
      · simp [hstart, lexFrom, haccepts, hhidden, List.filter_cons]
      · rfl
    | some s' =>
      obtain ⟨hsame, hboth⟩ := h.next s s' hnext
      simp only [lexFrom, hsame]
      split
      case isTrue haccepts =>
        obtain ⟨hs, hs'⟩ := hboth haccepts
        simp [hs, hs']
      case isFalse => rfl
  | cons d text ih =>
    rw [List.cons_append, lexFrom, lexFrom]
    cases hnext : m.next s d with
    | some s' => exact ih s' (read ++ [d])
    | none =>
      simp only []
      split
      case isFalse => rfl
      case isTrue =>
        cases hstart : m.start d with
        | none => rfl
        | some s' =>
          have hrest := congrArg (Option.map (List.filter (fun p => visible p.state) [⟨s, read⟩] ++ ·)) (ih s' [d])
          simp only [Option.map_map, Function.comp_def, ← List.filter_append, List.singleton_append] at hrest
          simp only [Option.bind_some, Option.map_map, Function.comp_def]
          exact hrest

/-- A blank at the end of a text changes nothing. -/
theorem Blank.visibles_append {c : α} (h : m.Blank visible c) (text : List α) :
    m.visibles visible (text ++ [c]) = m.visibles visible text := by
  cases text with
  | nil => exact h.visibles_cons []
  | cons d text =>
    unfold visibles
    rw [List.cons_append, lex, lex]
    cases m.start d with
    | none => rfl
    | some s => exact h.lexFrom_append s [d] text

/-- What the visible pieces leave of a text does not depend on how the text was read, but for its order. -/
theorem flat_hidden_perm {pieces others : List (Piece σ α)} (htext : flat pieces = flat others)
    (hsame : (pieces.filter fun p => visible p.state) = others.filter fun p => visible p.state) :
    (flat (pieces.filter fun p => !visible p.state)).Perm (flat (others.filter fun p => !visible p.state)) := by
  have hparts (l : List (Piece σ α)) :
      (flat (l.filter fun p => visible p.state) ++ flat (l.filter fun p => !visible p.state)).Perm (flat l) := by
    rw [← flat_append]
    exact (List.filter_append_perm (fun p : Piece σ α => visible p.state) l).flatMap_right Piece.text
  have hperm := (hparts pieces).trans ((List.Perm.of_eq htext).trans (hparts others).symm)
  rw [hsame] at hperm
  exact (List.perm_append_left_iff _).1 hperm

/-- Two readings of one text with the same visible pieces are one reading, if a hidden piece is a piece of one item. -/
theorem eq_of_visible_eq {pieces others : List (Piece σ α)} (hvalid : ∀ p ∈ pieces, m.Valid p)
    (hvalid' : ∀ q ∈ others, m.Valid q) (halone : ∀ p ∈ pieces, visible p.state = false → m.Alone p.state)
    (halone' : ∀ q ∈ others, visible q.state = false → m.Alone q.state) (htext : flat pieces = flat others)
    (hsame : (pieces.filter fun p => visible p.state) = others.filter fun p => visible p.state) : pieces = others := by
  induction pieces generalizing others with
  | nil =>
    cases others with
    | nil => rfl
    | cons q others =>
      have hq := (hvalid' q List.mem_cons_self).text_ne_nil
      rw [flat_nil, flat_cons] at htext
      exact absurd (List.append_eq_nil_iff.1 htext.symm).1 hq
  | cons p pieces ih =>
    cases others with
    | nil =>
      have hp := (hvalid p List.mem_cons_self).text_ne_nil
      rw [flat_nil, flat_cons] at htext
      exact absurd (List.append_eq_nil_iff.1 htext).1 hp
    | cons q others =>
      rw [List.forall_mem_cons] at hvalid hvalid' halone halone'
      rw [flat_cons, flat_cons] at htext
      have hhead : p.text.head? = q.text.head? := by
        rw [← List.head?_append_of_ne_nil p.text hvalid.1.text_ne_nil, htext,
          List.head?_append_of_ne_nil q.text hvalid'.1.text_ne_nil]
      have hpq : p = q := by
        cases hp : visible p.state with
        | false => exact (hvalid.1.eq_of_alone hvalid'.1 hhead (halone.1 hp)).symm
        | true =>
          cases hq : visible q.state with
          | false => exact hvalid'.1.eq_of_alone hvalid.1 hhead.symm (halone'.1 hq)
          | true =>
            simp only [List.filter_cons, hp, hq, if_true] at hsame
            exact (List.cons.inj hsame).1
      subst hpq
      rw [List.append_cancel_left_eq] at htext
      have hrest : (pieces.filter fun p => visible p.state) = others.filter fun p => visible p.state := by
        cases hp : visible p.state with
        | false => simpa only [List.filter_cons, hp, Bool.false_eq_true, if_false] using hsame
        | true =>
          simp only [List.filter_cons, hp, if_true] at hsame
          exact (List.cons.inj hsame).2
      rw [ih hvalid.2 hvalid'.2 halone.2 halone'.2 htext hrest]

end Visible

end Munch

/-! ## Runs between separators -/

section Separators

variable {β : Type} {sep : β → Bool}

theorem mem_of_mem_splitOnP {x : β} {l run : List β} (hrun : run ∈ l.splitOnP sep) (hx : x ∈ run) : x ∈ l := by
  induction l generalizing run with
  | nil =>
    rw [List.splitOnP_nil, List.mem_singleton] at hrun
    exact hrun ▸ hx
  | cons y l ih =>
    obtain ⟨first, runs, hruns⟩ := List.exists_cons_of_ne_nil (List.splitOnP_ne_nil sep l)
    rw [List.splitOnP_cons_eq_if_modifyHead, hruns] at hrun
    rw [hruns] at ih
    split at hrun
    case isTrue =>
      rcases List.mem_cons.1 hrun with rfl | hrun
      · cases hx
      · exact List.mem_cons_of_mem y (ih hrun hx)
    case isFalse =>
      rcases List.mem_cons.1 hrun with rfl | hrun
      · rcases List.mem_cons.1 hx with rfl | hx
        · exact List.mem_cons_self
        · exact List.mem_cons_of_mem y (ih List.mem_cons_self hx)
      · exact List.mem_cons_of_mem y (ih (List.mem_cons_of_mem first hrun) hx)

/-- With neighbours of a separator related to it in any case, a list is a chain if the runs between the separators
are. -/
theorem isChain_iff_splitOnP {R : β → β → Prop} {l : List β}
    (hsep : ∀ x ∈ l, ∀ y ∈ l, sep x = true ∨ sep y = true → R x y) :
    l.IsChain R ↔ ∀ run ∈ l.splitOnP sep, run.IsChain R := by
  induction l with
  | nil => simp [List.splitOnP_nil]
  | cons x l ih =>
    have hx' (y : β) (hy : y ∈ l) (h : sep x = true ∨ sep y = true) : R x y :=
      hsep x List.mem_cons_self y (List.mem_cons_of_mem x hy) h
    rw [List.isChain_cons, ih fun y hy z hz => hsep y (List.mem_cons_of_mem x hy) z (List.mem_cons_of_mem x hz),
      List.splitOnP_cons_eq_if_modifyHead]
    obtain ⟨first, runs, hruns⟩ := List.exists_cons_of_ne_nil (List.splitOnP_ne_nil sep l)
    cases hx : sep x with
    | true =>
      rw [if_pos rfl, List.forall_mem_cons]
      exact ⟨fun h => ⟨List.isChain_nil, h.2⟩, fun h => ⟨fun y hy => hx' y (List.mem_of_mem_head? hy) (.inl hx), h.2⟩⟩
    | false =>
      rw [if_neg Bool.false_ne_true, hruns, List.modifyHead_cons, List.forall_mem_cons, List.forall_mem_cons,
        List.isChain_cons,
        and_assoc]
      -- the first run begins with what follows `x`, unless that is a separator
      apply and_congr_left
      intro _
      cases l with
      | nil =>
        rw [List.splitOnP_nil] at hruns
        cases hruns
        exact Iff.rfl
      | cons y l =>
        rw [List.splitOnP_cons_eq_if_modifyHead] at hruns
        cases hy : sep y with
        | true =>
          rw [hy, if_pos rfl] at hruns
          cases hruns
          simp [hx' y List.mem_cons_self (.inr hy)]
        | false =>
          rw [hy, if_neg Bool.false_ne_true] at hruns
          obtain ⟨run, rest, hrest⟩ := List.exists_cons_of_ne_nil (List.splitOnP_ne_nil sep l)
          rw [hrest, List.modifyHead_cons] at hruns
          cases hruns
          exact Iff.rfl

/-- Items that are no separators can be left out before or after the list is split. -/
theorem filter_splitOnP {keep : β → Bool} (hkeep : ∀ x, sep x = true → keep x = true) (l : List β) :
    (l.splitOnP sep).map (List.filter keep) = (l.filter keep).splitOnP sep := by
  induction l with
  | nil => rfl
  | cons x l ih =>
    obtain ⟨first, runs, hruns⟩ := List.exists_cons_of_ne_nil (List.splitOnP_ne_nil sep l)
    cases hx : sep x with
    | true =>
      rw [List.filter_cons_of_pos (hkeep x hx), List.splitOnP_cons_eq_if_modifyHead,
        List.splitOnP_cons_eq_if_modifyHead, hx,
        if_pos rfl, if_pos rfl, List.map_cons, ih, List.filter_nil]
    | false =>
      rw [List.splitOnP_cons_eq_if_modifyHead, hx, if_neg Bool.false_ne_true, hruns, List.modifyHead_cons,
        List.map_cons]
      rw [hruns, List.map_cons] at ih
      cases hk : keep x with
      | true =>
        rw [List.filter_cons_of_pos hk, List.filter_cons_of_pos hk, List.splitOnP_cons_eq_if_modifyHead, hx,
          if_neg Bool.false_ne_true, ← ih, List.modifyHead_cons]
      | false =>
        rw [List.filter_cons_of_neg (by rw [hk]; decide), List.filter_cons_of_neg (by rw [hk]; decide), ih]

end Separators

end Zohar.Lib
