/-
Labelling the connected components of a graph by flood fill: every vertex that is still without a label seeds a search
that gives a fresh label to all it reaches. The labels tell the components apart exactly, and there are as many labels
as components.

The queue of a search holds labelled vertices whose neighbours are not all labelled yet; once it is empty the labelled
vertices are closed under edges, and the search has labelled one component and nothing else.
-/
import Mathlib.Data.Set.Card
import Mathlib.Data.Finset.Card
import Mathlib.Logic.Relation
import Mathlib.Tactic

namespace Zohar.Lib

/-- The label of each vertex, zero for none, and the vertices in the order in which they got theirs. -/
@[ext] structure Painting (V : Type) where
  label : V → Nat
  order : List V

variable {V : Type}

def Painting.blank : Painting V := ⟨fun _ => 0, []⟩

section Algorithm

variable [DecidableEq V] (adj : V → List V) (ok : V → Bool)

def Painting.mark (p : Painting V) (v : V) (id : Nat) : Painting V := ⟨Function.update p.label v id, p.order ++ [v]⟩

/-- Labels the neighbours that are without a label and queues them. -/
def spread (id : Nat) : Painting V → List V → List V → Painting V × List V
  | p, queue, [] => (p, queue)
  | p, queue, v :: vs =>
    if p.label v ≠ 0 ∨ ok v = false then spread id p queue vs else spread id (p.mark v id) (queue ++ [v]) vs

/-- The search, `none` where it is still running after `fuel` vertices. -/
def flood (id : Nat) : Nat → Painting V → List V → Option (Painting V)
  | _, p, [] => some p
  | 0, _, _ :: _ => none
  | fuel + 1, p, v :: queue => flood id fuel (spread ok id p queue (adj v)).1 (spread ok id p queue (adj v)).2

/-- A search from each vertex that is still without a label, with the next label to give. -/
def paintAll (fuel : Nat) : Nat → Painting V → List V → Option (Nat × Painting V)
  | next, p, [] => some (next, p)
  | next, p, v :: vs =>
    if p.label v ≠ 0 ∨ ok v = false then paintAll fuel next p vs
    else (flood adj ok next fuel (p.mark v next) [v]).bind fun p => paintAll fuel (next + 1) p vs

end Algorithm

/-! ## Connection -/

section Connection

variable (adj : V → List V) (ok : V → Bool)

def FloodEdge (a b : V) : Prop := ok a = true ∧ ok b = true ∧ b ∈ adj a

def FloodConnected : V → V → Prop := Relation.ReflTransGen (FloodEdge adj ok)

/-- The connected components, as sets of vertices. -/
def floodComponents : Set (Set V) := {s | ∃ v, ok v = true ∧ s = {u | FloodConnected adj ok v u}}

/-- Edges run both ways. -/
def FloodSymmetric : Prop := ∀ a b, FloodEdge adj ok a b → FloodEdge adj ok b a

variable {adj ok}

theorem FloodConnected.symm (hsym : FloodSymmetric adj ok) {a b : V} (h : FloodConnected adj ok a b) :
    FloodConnected adj ok b a := by
  induction h with
  | refl => exact .refl
  | tail _ hedge ih => exact .head (hsym _ _ hedge) ih

end Connection

/-! ## Spreading -/

variable [DecidableEq V] {adj : V → List V} {ok : V → Bool}

variable (ok) in
/-- Which vertices a spread labels: the neighbours that may be entered and are without a label. -/
theorem spread_spec {id : Nat} (hid : id ≠ 0) : ∀ (vs : List V) (p : Painting V) (queue : List V),
    ∃ new : List V, new.Nodup ∧ (∀ v, v ∈ new ↔ v ∈ vs ∧ ok v = true ∧ p.label v = 0) ∧
      spread ok id p queue vs = (⟨fun v => if v ∈ new then id else p.label v, p.order ++ new⟩, queue ++ new)
  | [], p, queue => ⟨[], List.nodup_nil, by simp, by simp [spread]⟩
  | v :: vs, p, queue => by
    rw [spread]
    by_cases hskip : p.label v ≠ 0 ∨ ok v = false
    · obtain ⟨new, hnodup, hmem, heq⟩ := spread_spec hid vs p queue
      rw [if_pos hskip]
      refine ⟨new, hnodup, fun u => ?_, heq⟩
      rw [hmem, List.mem_cons]
      constructor
      · rintro ⟨h1, h2⟩
        exact ⟨.inr h1, h2⟩
      · rintro ⟨rfl | h1, h2, h3⟩
        · rcases hskip with h | h
          · exact absurd h3 h
          · rw [h] at h2
            cases h2
        · exact ⟨h1, h2, h3⟩
    · have hzero : p.label v = 0 := not_not.1 fun h => hskip (.inl h)
      have hok : ok v = true := by simpa using fun h => hskip (.inr h)
      obtain ⟨new, hnodup, hmem, heq⟩ := spread_spec hid vs (p.mark v id) (queue ++ [v])
      have hv : v ∉ new := fun h => hid (by simpa [Painting.mark] using ((hmem v).1 h).2.2)
      rw [if_neg hskip, heq]
      refine ⟨v :: new, List.nodup_cons.2 ⟨hv, hnodup⟩, fun u => ?_, ?_⟩
      · rw [List.mem_cons, List.mem_cons, hmem]
        by_cases hu : u = v
        · subst hu
          exact iff_of_true (.inl rfl) ⟨.inl rfl, hok, hzero⟩
        · simp [hu, Painting.mark]
      · refine Prod.ext (Painting.ext ?_ ?_) ?_
        · funext u
          by_cases hu : u = v
          · subst hu
            simp [hv, Painting.mark]
          · simp [hu, Painting.mark]
        · simp [Painting.mark]
        · simp

/-! ## One search -/

variable (adj ok) in
/-- A search from `seed` underway: it has labelled only what it can reach, and a labelled vertex that is not queued any
more has no neighbour without a label. -/
structure Flooding (id : Nat) (before : Painting V) (seed : V) (p : Painting V) (queue : List V) : Prop where
  grown : ∀ v, p.label v = before.label v ∨
    (before.label v = 0 ∧ p.label v = id ∧ ok v = true ∧ FloodConnected adj ok seed v)
  queued : ∀ v ∈ queue, p.label v = id
  closed : ∀ v, p.label v = id → v ∉ queue → ∀ u, FloodEdge adj ok v u → p.label u ≠ 0
  seeded : p.label seed = id
  nodup : p.order.Nodup
  mem_order : ∀ v, v ∈ p.order ↔ p.label v ≠ 0

variable {id : Nat} {before : Painting V} {seed : V}

theorem flooding_mark (hid : id ≠ 0) (hfresh : ∀ v, before.label v ≠ id) (hzero : before.label seed = 0)
    (hok : ok seed = true) (hnodup : before.order.Nodup) (hmem : ∀ v, v ∈ before.order ↔ before.label v ≠ 0) :
    Flooding adj ok id before seed (before.mark seed id) [seed] where
  grown v := by
    by_cases hv : v = seed
    · subst hv
      exact .inr ⟨hzero, Function.update_self .., hok, .refl⟩
    · exact .inl (Function.update_of_ne hv ..)
  queued v hv := by
    rw [List.mem_singleton.1 hv]
    exact Function.update_self ..
  closed v hlabel hv := by
    have hne : v ≠ seed := fun h => hv (List.mem_singleton.2 h)
    exact absurd ((Function.update_of_ne hne ..).symm.trans hlabel) (hfresh v)
  seeded := Function.update_self ..
  nodup := by
    have hnot : seed ∉ before.order := fun h => (hmem seed).1 h hzero
    exact List.nodup_append.2 ⟨hnodup, List.nodup_singleton _, fun a ha b hb => by
      rw [List.mem_singleton.1 hb]
      rintro rfl
      exact hnot ha⟩
  mem_order v := by
    show v ∈ before.order ++ [seed] ↔ Function.update before.label seed id v ≠ 0
    rw [List.mem_append, List.mem_singleton, hmem]
    by_cases hv : v = seed
    · subst hv
      rw [Function.update_self]
      exact iff_of_true (.inr rfl) hid
    · rw [Function.update_of_ne hv]
      exact or_iff_left hv

/-- One vertex of the queue. -/
theorem Flooding.spread (hid : id ≠ 0) (hfresh : ∀ v, before.label v ≠ id) {p : Painting V} {v : V} {queue : List V}
    (h : Flooding adj ok id before seed p (v :: queue)) :
    Flooding adj ok id before seed (spread ok id p queue (adj v)).1 (spread ok id p queue (adj v)).2 := by
  obtain ⟨new, hnew, hmem, heq⟩ := spread_spec ok hid (adj v) p queue
  rw [heq]
  have hv : p.label v = id := h.queued v List.mem_cons_self
  obtain ⟨-, -, hokv, hconn⟩ := (h.grown v).resolve_left fun he => hfresh v (he.symm.trans hv)
  have hold : ∀ u, p.label u ≠ 0 → u ∉ new := fun u hu hun => hu ((hmem u).1 hun).2.2
  refine ⟨fun u => ?_, fun u hu => ?_, fun u hu hnot w hw => ?_, ?_, ?_, fun u => ?_⟩
  · show (if u ∈ new then id else p.label u) = before.label u ∨ _ ∧ (if u ∈ new then id else p.label u) = id ∧ _
    by_cases hun : u ∈ new
    · obtain ⟨hadj, hok, hzero⟩ := (hmem u).1 hun
      have hbefore : before.label u = 0 := by
        rcases h.grown u with he | he
        · rw [← he, hzero]
        · exact he.1
      rw [if_pos hun]
      exact .inr ⟨hbefore, rfl, hok, hconn.tail ⟨hokv, hok, hadj⟩⟩
    · rw [if_neg hun]
      exact h.grown u
  · show (if u ∈ new then id else p.label u) = id
    split
    · rfl
    · rename_i hun
      exact h.queued u (List.mem_cons_of_mem _ ((List.mem_append.1 hu).resolve_right hun))
  · show (if w ∈ new then id else p.label w) ≠ 0
    have hlabel : (if u ∈ new then id else p.label u) = id := hu
    have hun : u ∉ new := fun hun => hnot (List.mem_append_right _ hun)
    rw [if_neg hun] at hlabel
    split
    · exact hid
    · rename_i hwn
      by_cases huv : u = v
      · subst huv
        exact fun hzero => hwn ((hmem w).2 ⟨hw.2.2, hw.2.1, hzero⟩)
      · refine h.closed u hlabel ?_ w hw
        rw [List.mem_cons]
        rintro (he | hq)
        · exact huv he
        · exact hnot (List.mem_append_left _ hq)
  · show (if seed ∈ new then id else p.label seed) = id
    split
    · rfl
    · exact h.seeded
  · refine List.nodup_append.2 ⟨h.nodup, hnew, fun a ha b hb => ?_⟩
    rintro rfl
    exact hold a ((h.mem_order a).1 ha) hb
  · show u ∈ p.order ++ new ↔ (if u ∈ new then id else p.label u) ≠ 0
    rw [List.mem_append, h.mem_order]
    split
    · rename_i hun
      exact iff_of_true (.inr hun) hid
    · rename_i hun
      exact or_iff_left hun

theorem Flooding.of_flood (hid : id ≠ 0) (hfresh : ∀ v, before.label v ≠ id) : ∀ (fuel : Nat) {p q : Painting V}
    {queue : List V}, Flooding adj ok id before seed p queue → flood adj ok id fuel p queue = some q →
    Flooding adj ok id before seed q []
  | fuel, p, q, [], h, hq => by
    rw [flood] at hq
    cases hq
    exact h
  | 0, p, q, v :: queue, h, hq => by cases hq
  | fuel + 1, p, q, v :: queue, h, hq => of_flood hid hfresh fuel (h.spread hid hfresh) hq

variable (adj) in
/-- A search ends within as many steps as there are vertices queued or without a label. -/
theorem flood_isSome (hid : id ≠ 0) (dom : Finset V) (hdom : ∀ v, ok v = true → v ∈ dom) :
    ∀ (fuel : Nat) (p : Painting V)
    (queue : List V), queue.length + (dom.filter fun v => p.label v = 0).card ≤ fuel →
    (flood adj ok id fuel p queue).isSome
  | fuel, p, [], _ => by simp [flood]
  | 0, p, v :: queue, h => by simp at h
  | fuel + 1, p, v :: queue, h => by
    obtain ⟨new, hnew, hmem, heq⟩ := spread_spec ok hid (adj v) p queue
    rw [flood, heq]
    refine flood_isSome hid dom hdom fuel _ _ ?_
    -- the vertices that the spread labels leave the set of those without a label
    have hsub : new.toFinset ⊆ dom.filter fun u => p.label u = 0 := by
      intro u hu
      obtain ⟨-, hok, hzero⟩ := (hmem u).1 (List.mem_toFinset.1 hu)
      exact Finset.mem_filter.2 ⟨hdom u hok, hzero⟩
    have hrest : (dom.filter fun u => (if u ∈ new then id else p.label u) = 0) =
        (dom.filter fun u => p.label u = 0) \ new.toFinset := by
      ext u
      rw [Finset.mem_filter, Finset.mem_sdiff, Finset.mem_filter, List.mem_toFinset]
      by_cases hu : u ∈ new
      · simp [hu, hid]
      · simp [hu]
    have hcard := Finset.card_sdiff_add_card_eq_card hsub
    rw [List.toFinset_card_of_nodup hnew] at hcard
    show (queue ++ new).length + (dom.filter fun u => (if u ∈ new then id else p.label u) = 0).card ≤ fuel
    rw [hrest, List.length_append]
    rw [List.length_cons] at h
    omega

/-! ## All searches -/

variable (adj ok) in
/-- Whole components are labelled, with the labels below `next`, each component with one of its own. -/
structure Painted (next : Nat) (p : Painting V) : Prop where
  nodup : p.order.Nodup
  mem_order : ∀ v, v ∈ p.order ↔ p.label v ≠ 0
  enterable : ∀ v, p.label v ≠ 0 → ok v = true
  lt : ∀ v, p.label v < next
  same : ∀ u v, p.label u ≠ 0 → (p.label v = p.label u ↔ FloodConnected adj ok u v)
  used : ∀ id, 0 < id → id < next → ∃ v, p.label v = id

omit [DecidableEq V] in
theorem painted_blank : Painted adj ok 1 Painting.blank where
  nodup := List.nodup_nil
  mem_order v := iff_of_false List.not_mem_nil (not_not.2 rfl)
  enterable v h := absurd rfl h
  lt v := Nat.one_pos
  same u v h := absurd rfl h
  used id h1 h2 := absurd h1 (by omega)

omit [DecidableEq V] in
/-- What has a label when a search is done: what had one before, and what the seed is connected to. -/
theorem Flooding.label_iff {p q : Painting V} {next : Nat} (hp : Painted adj ok next p) (hsym : FloodSymmetric adj ok)
    (h : Flooding adj ok next p seed q []) (v : V) :
    q.label v = next ↔ FloodConnected adj ok seed v := by
  have hfresh : ∀ v, p.label v ≠ next := fun v => (hp.lt v).ne
  constructor
  · intro hv
    exact ((h.grown v).resolve_left fun he => hfresh v (he.symm.trans hv)).2.2.2
  · intro hconn
    induction hconn with
    | refl => exact h.seeded
    | @tail u w hu hedge ih =>
      rcases h.grown w with he | he
      · -- a neighbour labelled before would have brought its whole component along
        have hw : p.label w ≠ 0 := he ▸ h.closed u ih List.not_mem_nil w hedge
        have hback : FloodConnected adj ok w u := .single (hsym _ _ hedge)
        have hlabel : p.label u = p.label w := (hp.same w u hw).2 hback
        rcases h.grown u with hu' | hu'
        · exact absurd (hu'.symm.trans ih) (hfresh u)
        · exact absurd (hlabel.symm.trans hu'.1) hw
      · exact he.2.1

theorem Painted.search {p q : Painting V} {next fuel : Nat} (hp : Painted adj ok next p) (hsym : FloodSymmetric adj ok)
    (hnext : next ≠ 0) {v : V} (hzero : p.label v = 0) (hok : ok v = true)
    (hq : flood adj ok next fuel (p.mark v next) [v] = some q) :
    Painted adj ok (next + 1) q ∧ q.label v ≠ 0 ∧ ∀ u, p.label u ≠ 0 → q.label u = p.label u := by
  have hfresh : ∀ v, p.label v ≠ next := fun v => (hp.lt v).ne
  have hf : Flooding adj ok next p v q [] :=
    .of_flood hnext hfresh fuel (flooding_mark hnext hfresh hzero hok hp.nodup hp.mem_order) hq
  have hiff := hf.label_iff hp hsym
  have hkeep : ∀ u, p.label u ≠ 0 → q.label u = p.label u := by
    intro u hu
    rcases hf.grown u with he | he
    · exact he
    · exact absurd he.1 hu
  refine ⟨⟨hf.nodup, hf.mem_order, fun u hu => ?_, fun u => ?_, fun u w hu => ?_, fun id h0 h1 => ?_⟩, ?_, hkeep⟩
  · rcases hf.grown u with he | he
    · exact hp.enterable u (he ▸ hu)
    · exact he.2.2.1
  · rcases hf.grown u with he | he
    · have := hp.lt u
      omega
    · omega
  · by_cases hold : p.label u = 0
    · -- a vertex of the component just labelled
      have hun : q.label u = next := by
        rcases hf.grown u with he | he
        · exact absurd (he.trans hold) hu
        · exact he.2.1
      have hvu := (hiff u).1 hun
      rw [hun, hiff w]
      exact ⟨fun h => (FloodConnected.symm hsym hvu).trans h, fun h => hvu.trans h⟩
    · rw [hkeep u hold]
      rcases hf.grown w with he | he
      · rw [he]
        exact hp.same u w hold
      · refine iff_of_false (fun h => ?_) fun h => ?_
        · have := hp.lt u
          omega
        · exact hold (((hp.same u w hold).2 h).symm.trans he.1)
  · by_cases hid : id = next
    · exact ⟨v, hf.seeded.trans hid.symm⟩
    · obtain ⟨u, hu⟩ := hp.used id h0 (by omega)
      exact ⟨u, (hkeep u (by omega)).trans hu⟩
  · rw [hf.seeded]
    exact hnext

/-- After all searches every vertex of the list that may be entered has a label, and the labels tell components
apart. -/
theorem Painted.of_paintAll (hsym : FloodSymmetric adj ok) {fuel : Nat} : ∀ (vs : List V) {next next' : Nat}
    {p q : Painting V}, next ≠ 0 → Painted adj ok next p → paintAll adj ok fuel next p vs = some (next', q) →
    Painted adj ok next' q ∧ (∀ v ∈ vs, ok v = true → q.label v ≠ 0) ∧ ∀ v, p.label v ≠ 0 → q.label v = p.label v
  | [], next, next', p, q, _, hp, hq => by
    cases hq
    exact ⟨hp, nofun, fun _ _ => rfl⟩
  | v :: vs, next, next', p, q, hnext, hp, hq => by
    rw [paintAll] at hq
    split at hq
    · rename_i hskip
      obtain ⟨hq', hall, hkeep⟩ := of_paintAll hsym vs hnext hp hq
      refine ⟨hq', fun u hu hok => ?_, hkeep⟩
      rcases List.mem_cons.1 hu with rfl | hu
      · rcases hskip with h | h
        · rw [hkeep u h]
          exact h
        · rw [h] at hok
          cases hok
      · exact hall u hu hok
    · rename_i hskip
      rw [not_or, not_not, Bool.not_eq_false] at hskip
      obtain ⟨r, hr, hq⟩ := Option.bind_eq_some_iff.1 hq
      obtain ⟨hr', hv, hkeep⟩ := hp.search hsym hnext hskip.1 hskip.2 hr
      obtain ⟨hq', hall, hkeep'⟩ := of_paintAll hsym vs (Nat.succ_ne_zero _) hr' hq
      refine ⟨hq', fun u hu hok => ?_, fun u hu => ?_⟩
      · rcases List.mem_cons.1 hu with rfl | hu
        · rw [hkeep' u hv]
          exact hv
        · exact hall u hu hok
      · rw [hkeep' u (by rw [hkeep u hu]; exact hu), hkeep u hu]

theorem paintAll_le {fuel : Nat} : ∀ (vs : List V) {next next' : Nat} {p q : Painting V},
    paintAll adj ok fuel next p vs = some (next', q) → next ≤ next'
  | [], _, _, _, _, hq => by
    cases hq
    exact le_rfl
  | v :: vs, next, next', p, q, hq => by
    rw [paintAll] at hq
    split at hq
    · exact paintAll_le vs hq
    · obtain ⟨r, _, hq⟩ := Option.bind_eq_some_iff.1 hq
      exact (Nat.le_succ next).trans (paintAll_le vs hq)

variable (adj) in
theorem paintAll_isSome (dom : Finset V) (hdom : ∀ v, ok v = true → v ∈ dom) {fuel : Nat} (hfuel : dom.card ≤ fuel) :
    ∀ (vs : List V) {next : Nat} (p : Painting V), next ≠ 0 → (paintAll adj ok fuel next p vs).isSome
  | [], _, _, _ => rfl
  | v :: vs, next, p, hnext => by
    rw [paintAll]
    split
    · exact paintAll_isSome dom hdom hfuel vs p hnext
    · rename_i hskip
      rw [not_or, not_not, Bool.not_eq_false] at hskip
      have hcard : [v].length + (dom.filter fun u => (p.mark v next).label u = 0).card ≤ fuel := by
        have hlt : (dom.filter fun u => (p.mark v next).label u = 0).card < dom.card := by
          refine Finset.card_lt_card (Finset.filter_ssubset.2 ⟨v, hdom v hskip.2, ?_⟩)
          simp [Painting.mark, hnext]
        rw [List.length_singleton]
        omega
      obtain ⟨q, hq⟩ := Option.isSome_iff_exists.1
        (flood_isSome adj hnext dom hdom fuel (p.mark v next) [v] hcard)
      rw [hq]
      exact paintAll_isSome dom hdom hfuel vs q (Nat.succ_ne_zero _)

/-! ## Counting components -/

omit [DecidableEq V] in
/-- There are as many components as labels. -/
theorem Painted.ncard_components {p : Painting V} {next : Nat} (hp : Painted adj ok next p)
    (hall : ∀ v, ok v = true → p.label v ≠ 0) : (floodComponents adj ok).ncard = next - 1 := by
  have himage : floodComponents adj ok = (fun id => {v | p.label v = id}) '' Set.Icc 1 (next - 1) := by
    ext s
    constructor
    · rintro ⟨v, hv, rfl⟩
      have h0 := hall v hv
      have hlt := hp.lt v
      refine ⟨p.label v, ⟨by omega, by omega⟩, ?_⟩
      ext u
      exact hp.same v u h0
    · rintro ⟨id, ⟨h1, h2⟩, rfl⟩
      obtain ⟨v, rfl⟩ := hp.used id (by omega) (by omega)
      refine ⟨v, hp.enterable v (by omega), ?_⟩
      ext u
      exact hp.same v u (by omega)
  have hinj : Set.InjOn (fun id => {v | p.label v = id}) (Set.Icc 1 (next - 1)) := by
    rintro a ⟨ha1, ha2⟩ b ⟨hb1, hb2⟩ hab
    obtain ⟨v, hv⟩ := hp.used a (by omega) (by omega)
    have hmem : v ∈ {v | p.label v = b} := (Set.ext_iff.1 hab v).1 hv
    exact hv.symm.trans hmem
  rw [himage, hinj.ncard_image, Set.ncard_eq_toFinset_card', Set.toFinset_Icc, Nat.card_Icc]
  omega

omit [DecidableEq V] in
/-- Vertices without edges are components of their own. -/
theorem floodComponents_eq_singletons (h : ∀ a b, ¬ FloodEdge adj ok a b) :
    floodComponents adj ok = (fun v => {v}) '' {v | ok v = true} := by
  have hconn : ∀ a b, FloodConnected adj ok a b ↔ b = a := by
    intro a b
    refine ⟨fun hab => ?_, fun hab => hab ▸ .refl⟩
    rcases Relation.ReflTransGen.cases_head hab with rfl | ⟨c, hc, _⟩
    · rfl
    · exact absurd hc (h a c)
  ext s
  constructor
  · rintro ⟨v, hv, rfl⟩
    refine ⟨v, hv, ?_⟩
    ext u
    exact (hconn v u).symm
  · rintro ⟨v, hv, rfl⟩
    refine ⟨v, hv, ?_⟩
    ext u
    exact (hconn v u).symm

end Zohar.Lib
