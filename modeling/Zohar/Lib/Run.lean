/-
Runs of a partial step function over a list of events: an event that is not enabled has no next
state. The rules carry an invariant along a run, either for every run or for the runs whose steps
all meet a condition on the state before the step.
-/
import Mathlib.Tactic

namespace Zohar.Lib

variable {σ ε : Type} (step : σ → ε → Option σ)

/-- The state after the events, `none` if one of them is not enabled when its turn comes. -/
def run : σ → List ε → Option σ
  | s, [] => some s
  | s, e :: es => (step s e).bind fun t => run t es

@[simp] theorem run_nil (s : σ) : run step s [] = some s := rfl

theorem run_cons (s : σ) (e : ε) (es : List ε) : run step s (e :: es) = (step s e).bind fun t => run step t es := rfl

theorem run_cons_eq_some {s u : σ} {e : ε} {es : List ε} :
    run step s (e :: es) = some u ↔ ∃ t, step s e = some t ∧ run step t es = some u := by
  rw [run_cons, Option.bind_eq_some_iff]

theorem run_append : ∀ (s : σ) (es fs : List ε),
    run step s (es ++ fs) = (run step s es).bind fun t => run step t fs
  | s, [], fs => by simp
  | s, e :: es, fs => by
    rw [List.cons_append, run_cons, run_cons, Option.bind_assoc]
    congr 1
    funext t
    exact run_append t es fs

theorem run_append_eq_some {s u : σ} {es fs : List ε} :
    run step s (es ++ fs) = some u ↔ ∃ t, run step s es = some t ∧ run step t fs = some u := by
  rw [run_append, Option.bind_eq_some_iff]

/-- A step that is always taken runs as a fold. -/
theorem run_some_eq_foldl (f : σ → ε → σ) : ∀ (es : List ε) (s : σ),
    run (fun s e => some (f s e)) s es = some (es.foldl f s)
  | [], _ => rfl
  | e :: es, s => run_some_eq_foldl f es (f s e)

/-- Every event of the list is taken in a state in which `C` allows it. -/
def Meets (C : σ → ε → Prop) : σ → List ε → Prop
  | _, [] => True
  | s, e :: es => C s e ∧ ∀ t, step s e = some t → Meets C t es

/-- Whether a given run meets a decidable condition can be computed. -/
def decidableMeets (C : σ → ε → Prop) [∀ s e, Decidable (C s e)] : ∀ (s : σ) (es : List ε),
    Decidable (Meets step C s es)
  | _, [] => .isTrue trivial
  | s, e :: es =>
    match h : step s e with
    | none => decidable_of_iff (C s e) ⟨fun hc => ⟨hc, by simp [h]⟩, fun hm => hm.1⟩
    | some t =>
      have := decidableMeets C t es
      decidable_of_iff (C s e ∧ Meets step C t es)
        ⟨fun hc => ⟨hc.1, fun u hu => by rw [h] at hu; cases hu; exact hc.2⟩, fun hm => ⟨hm.1, hm.2 t h⟩⟩

instance (C : σ → ε → Prop) [∀ s e, Decidable (C s e)] (s : σ) (es : List ε) : Decidable (Meets step C s es) :=
  decidableMeets step C s es

/-- The property holds in every state that the events lead through. -/
def Along (P : σ → Prop) : σ → List ε → Prop
  | s, [] => P s
  | s, e :: es => P s ∧ ∀ t, step s e = some t → Along P t es

/-- Whether a given run keeps to a decidable property can be computed. -/
def decidableAlong (P : σ → Prop) [∀ s, Decidable (P s)] : ∀ (s : σ) (es : List ε), Decidable (Along step P s es)
  | s, [] => inferInstanceAs (Decidable (P s))
  | s, e :: es =>
    match h : step s e with
    | none => decidable_of_iff (P s) ⟨fun hp => ⟨hp, by simp [h]⟩, fun ha => ha.1⟩
    | some t =>
      have := decidableAlong P t es
      decidable_of_iff (P s ∧ Along step P t es)
        ⟨fun hp => ⟨hp.1, fun u hu => by rw [h] at hu; cases hu; exact hp.2⟩, fun ha => ⟨ha.1, ha.2 t h⟩⟩

instance (P : σ → Prop) [∀ s, Decidable (P s)] (s : σ) (es : List ε) : Decidable (Along step P s es) :=
  decidableAlong step P s es

variable {step}

theorem Along.head {P : σ → Prop} {s : σ} {es : List ε} (h : Along step P s es) : P s := by
  cases es with
  | nil => exact h
  | cons _ _ => exact h.1

theorem Along.and {P Q : σ → Prop} : ∀ {es : List ε} {s : σ}, Along step P s es → Along step Q s es →
    Along step (fun s => P s ∧ Q s) s es
  | [], _, hP, hQ => ⟨hP, hQ⟩
  | _ :: _, _, hP, hQ => ⟨⟨hP.1, hQ.1⟩, fun t ht => (hP.2 t ht).and (hQ.2 t ht)⟩

/-- Under an invariant, a property gives another along every run. -/
theorem Along.of_inv {I P Q : σ → Prop} (hI : ∀ s e t, I s → step s e = some t → I t) (h : ∀ s, I s → P s → Q s) :
    ∀ {es : List ε} {s : σ}, I s → Along step P s es → Along step Q s es
  | [], s, hs, hP => h s hs hP
  | e :: _, s, hs, hP => ⟨h s hs hP.1, fun t ht => (hP.2 t ht).of_inv hI h (hI s e t hs ht)⟩

/-- A map that commutes with the steps commutes with the runs. -/
theorem run_map {τ : Type} {step' : τ → ε → Option τ} {f : σ → τ} (h : ∀ s e, (step s e).map f = step' (f s) e) :
    ∀ (es : List ε) (s : σ), (run step s es).map f = run step' (f s) es
  | [], s => rfl
  | e :: es, s => by
    rw [run_cons, run_cons, ← h s e]
    cases step s e with
    | none => rfl
    | some t => exact run_map h es t

theorem Meets.of_forall {D : ε → Prop} : ∀ {es : List ε} {s : σ}, (∀ e ∈ es, D e) → Meets step (fun _ e => D e) s es
  | [], _, _ => trivial
  | e :: _, _, h => ⟨h e List.mem_cons_self, fun _ _ => .of_forall fun e' he' => h e' (List.mem_cons_of_mem _ he')⟩

theorem Meets.of_imp {C D : σ → ε → Prop} (h : ∀ s e, C s e → D s e) : ∀ {es : List ε} {s : σ}, Meets step C s es →
    Meets step D s es
  | [], _, _ => trivial
  | _ :: _, s, hc => ⟨h s _ hc.1, fun t ht => (hc.2 t ht).of_imp h⟩

theorem Meets.and {C D : σ → ε → Prop} : ∀ {es : List ε} {s : σ}, Meets step C s es → Meets step D s es →
    Meets step (fun s e => C s e ∧ D s e) s es
  | [], _, _, _ => trivial
  | _ :: _, _, hc, hd => ⟨⟨hc.1, hd.1⟩, fun t ht => (hc.2 t ht).and (hd.2 t ht)⟩

/-- The invariant rule for runs whose steps all meet `C`. -/
theorem run_inv_of_meets {I : σ → Prop} {C : σ → ε → Prop}
    (h : ∀ s e t, I s → C s e → step s e = some t → I t) :
    ∀ {es : List ε} {s t : σ}, I s → Meets step C s es → run step s es = some t → I t
  | [], _, _, hI, _, hr => by cases hr; exact hI
  | e :: es, s, u, hI, hC, hr => by
    obtain ⟨t, ht, hr⟩ := (run_cons_eq_some step).1 hr
    exact run_inv_of_meets h (h s e t hI hC.1 ht) (hC.2 t ht) hr

/-- The invariant rule for runs that keep to `P` and whose steps all meet `C`. -/
theorem run_inv_along {I P : σ → Prop} {C : σ → ε → Prop}
    (h : ∀ s e t, I s → P s → P t → C s e → step s e = some t → I t) :
    ∀ {es : List ε} {s t : σ}, I s → Along step P s es → Meets step C s es → run step s es = some t → I t ∧ P t
  | [], _, _, hI, hP, _, hr => by cases hr; exact ⟨hI, hP⟩
  | e :: es, s, u, hI, hP, hC, hr => by
    obtain ⟨t, ht, hr⟩ := (run_cons_eq_some step).1 hr
    have hPt := hP.2 t ht
    exact run_inv_along h (h s e t hI hP.1 hPt.head hC.1 ht) hPt (hC.2 t ht) hr

/-- The invariant rule for every run. -/
theorem run_inv {I : σ → Prop} (h : ∀ s e t, I s → step s e = some t → I t) {es : List ε} {s t : σ}
    (hI : I s) (hr : run step s es = some t) : I t :=
  run_inv_of_meets (C := fun _ _ => True) (fun s e t hs _ ht => h s e t hs ht) hI (.of_forall fun _ _ => trivial) hr

/-- Where a step keeps the property exactly if it meets `C`, a run keeps it throughout exactly if all its steps do. The
steps that meet `C` keep the invariant. -/
theorem along_iff_meets_of_kept {I P : σ → Prop} {C : σ → ε → Prop}
    (h : ∀ s e t, I s → P s → step s e = some t → (P t ↔ C s e) ∧ (C s e → I t)) :
    ∀ {es : List ε} {s u : σ}, I s → P s → run step s es = some u → (Along step P s es ↔ Meets step C s es)
  | [], _, _, _, hP, _ => iff_of_true hP trivial
  | e :: es, s, u, hs, hP, hr => by
    obtain ⟨t, ht, hr⟩ := (run_cons_eq_some step).1 hr
    obtain ⟨hstep, hkeep⟩ := h s e t hs hP ht
    have hone : ∀ {t'}, step s e = some t' → t' = t := fun ht' => Option.some.inj (ht'.symm.trans ht)
    constructor
    · rintro ⟨_, hall⟩
      have hPt : P t := (hall t ht).head
      have hC : C s e := hstep.1 hPt
      refine ⟨hC, fun t' ht' => ?_⟩
      rw [hone ht']
      exact (along_iff_meets_of_kept h (hkeep hC) hPt hr).1 (hall t ht)
    · rintro ⟨hC, hall⟩
      refine ⟨hP, fun t' ht' => ?_⟩
      rw [hone ht']
      exact (along_iff_meets_of_kept h (hkeep hC) (hstep.2 hC) hr).2 (hall t ht)

theorem along_iff_meets {I P : σ → Prop} {C : σ → ε → Prop}
    (h : ∀ s e t, I s → P s → step s e = some t → I t ∧ (P t ↔ C s e)) {es : List ε} {s u : σ} (hs : I s) (hP : P s)
    (hr : run step s es = some u) : Along step P s es ↔ Meets step C s es :=
  along_iff_meets_of_kept (fun s e t hI hP ht => ⟨(h s e t hI hP ht).2, fun _ => (h s e t hI hP ht).1⟩) hs hP hr

/-- Under an invariant that it keeps, a condition gives another along every run. -/
theorem Meets.of_inv {I : σ → Prop} {C D : σ → ε → Prop} (hI : ∀ s e t, I s → C s e → step s e = some t → I t)
    (hD : ∀ s e, I s → C s e → D s e) : ∀ {es : List ε} {s : σ}, I s → Meets step C s es → Meets step D s es
  | [], _, _, _ => trivial
  | e :: _, s, hs, hC => ⟨hD s e hs hC.1, fun t ht => (hC.2 t ht).of_inv hI hD (hI s e t hs hC.1 ht)⟩

/-- Two conditions that agree on the steps from the states of an invariant, which they keep, are met by the same
runs. -/
theorem meets_congr {I : σ → Prop} {C D : σ → ε → Prop}
    (h : ∀ s e t, I s → step s e = some t → (D s e ↔ C s e) ∧ (C s e → I t)) :
    ∀ {es : List ε} {s u : σ}, I s → run step s es = some u → (Meets step D s es ↔ Meets step C s es)
  | [], _, _, _, _ => Iff.rfl
  | e :: es, s, u, hs, hr => by
    obtain ⟨t, ht, hr⟩ := (run_cons_eq_some step).1 hr
    obtain ⟨hiff, hkeep⟩ := h s e t hs ht
    have hone : ∀ {t'}, step s e = some t' → t' = t := fun ht' => Option.some.inj (ht'.symm.trans ht)
    constructor
    · rintro ⟨hD, hall⟩
      refine ⟨hiff.1 hD, fun t' ht' => ?_⟩
      rw [hone ht']
      exact (meets_congr h (hkeep (hiff.1 hD)) hr).1 (hall t ht)
    · rintro ⟨hC, hall⟩
      refine ⟨hiff.2 hC, fun t' ht' => ?_⟩
      rw [hone ht']
      exact (meets_congr h (hkeep hC) hr).2 (hall t ht)

/-- Where every step from a state of the invariant keeps it if it meets `C`, and otherwise leads into a property that no
step leads out of, so does every run. -/
theorem meets_or_absorbed {I D : σ → Prop} {C : σ → ε → Prop} (hkeep : ∀ s e t, D s → step s e = some t → D t)
    (h : ∀ s e t, I s → step s e = some t → C s e ∧ I t ∨ ¬ C s e ∧ D t) :
    ∀ {es : List ε} {s u : σ}, I s → run step s es = some u → Meets step C s es ∧ I u ∨ ¬ Meets step C s es ∧ D u
  | [], s, u, hs, hr => by
    cases hr
    exact .inl ⟨trivial, hs⟩
  | e :: es, s, u, hs, hr => by
    obtain ⟨t, ht, hr⟩ := (run_cons_eq_some step).1 hr
    rcases h s e t hs ht with ⟨hC, hI⟩ | ⟨hC, hD⟩
    · have htail : Meets step C s (e :: es) ↔ Meets step C t es := by
        refine ⟨fun hm => hm.2 t ht, fun hm => ⟨hC, fun t' ht' => ?_⟩⟩
        rw [Option.some.inj (ht'.symm.trans ht)]
        exact hm
      rw [htail]
      exact meets_or_absorbed hkeep h hI hr
    · exact .inr ⟨fun hm => hC hm.1, run_inv hkeep hD hr⟩

/-- Where a step leads into a property that no step leads out of exactly if it does not meet `C`, a run has the property
at its end exactly if not all its steps meet `C`. -/
theorem meets_iff_of_absorbing {C : σ → ε → Prop} {D : σ → Prop} (hkeep : ∀ s e t, D s → step s e = some t → D t)
    (h : ∀ s e t, ¬ D s → step s e = some t → (¬ D t ↔ C s e)) {es : List ε} {s u : σ} (hs : ¬ D s)
    (hr : run step s es = some u) : Meets step C s es ↔ ¬ D u := by
  have hstep : ∀ s e t, ¬ D s → step s e = some t → C s e ∧ ¬ D t ∨ ¬ C s e ∧ D t := by
    intro s e t hs ht
    by_cases hD : D t
    · exact .inr ⟨fun hC => (h s e t hs ht).2 hC hD, hD⟩
    · exact .inl ⟨(h s e t hs ht).1 hD, hD⟩
  rcases meets_or_absorbed hkeep hstep hs hr with ⟨hm, hu⟩ | ⟨hm, hu⟩
  · exact iff_of_true hm hu
  · exact iff_of_false hm (not_not.2 hu)

end Zohar.Lib
