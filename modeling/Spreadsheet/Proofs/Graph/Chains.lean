import Mathlib.Data.Set.Finite.List
import Mathlib.Logic.Relation
import Spreadsheet.Graph.Reach
import Spreadsheet.Proofs.Graph.Edges

-- What a search meets are the cells at the ends of chains of reads, so the closure of seeds holds
-- the formulas that depend on a seed. The reads within a set are those of both ends in the set.

set_option autoImplicit false

namespace Spreadsheet

-- The ends of the ways along `next` that begin at one of `starts` and stay in `cells` after it.
inductive Met (next : Key → List Key) (cells : KeySet) (starts : List Key) : Key → Prop where
  | first (s k : Key) (start : s ∈ starts) (edge : k ∈ next s) (inside : k ∈ cells) :
      Met next cells starts k
  | step (p k : Key) (met : Met next cells starts p) (edge : k ∈ next p) (inside : k ∈ cells) :
      Met next cells starts k

namespace Frontier

theorem idle_iff (next : Key → List Key) (f : Frontier) :
    f.next? next = none ↔ f.queue = [] := by
  cases waiting : f.queue with
  | nil => simp [next?, waiting]
  | cons k rest => simp [next?, waiting]

theorem mem_meet_all (f : Frontier) (ks : List Key) (k : Key) :
    (k ∈ (f.meetAll ks).queue ↔ k ∈ f.queue ∨ k ∈ f.fresh ∧ k ∈ ks) ∧
      (k ∈ (f.meetAll ks).met ↔ k ∈ f.met ∨ k ∈ f.fresh ∧ k ∈ ks) ∧
        (k ∈ (f.meetAll ks).fresh ↔ k ∈ f.fresh ∧ k ∉ ks) := by
  induction ks generalizing f with
  | nil => simp [meetAll]
  | cons p rest ih =>
    obtain ⟨queue, met, fresh⟩ := ih (f.meet p)
    change (k ∈ ((f.meet p).meetAll rest).queue ↔ _) ∧
      (k ∈ ((f.meet p).meetAll rest).met ↔ _) ∧ (k ∈ ((f.meet p).meetAll rest).fresh ↔ _)
    rw [queue, met, fresh]
    by_cases known : p ∈ f.fresh
    · simp only [meet, if_pos known, member_erase, member_insert, List.mem_append, List.mem_cons]
      grind
    · simp only [meet, if_neg known, List.mem_cons]
      grind

-- A search under way: what it has met is met, no cell has been lost, and what it has gone on from
-- has nothing fresh next to it.
structure Explored (next : Key → List Key) (cells : KeySet) (starts : List Key) (f : Frontier) :
    Prop where
  sound : ∀ k ∈ f.met, Met next cells starts k
  queued : ∀ k ∈ f.queue, k ∈ starts ∨ k ∈ f.met
  covered : ∀ k ∈ cells, k ∈ f.fresh ∨ k ∈ f.met
  inside : ∀ k ∈ f.fresh, k ∈ cells
  closed : ∀ p, p ∈ starts ∨ p ∈ f.met → p ∈ f.queue ∨ ∀ k ∈ next p, k ∉ f.fresh

section Explored

variable (next : Key → List Key) (cells : KeySet) (starts : List Key)

theorem explored_begin : Explored next cells starts (begin starts cells) where
  sound k member := by simp [begin] at member
  queued k member := .inl member
  covered k member := .inl member
  inside k member := member
  closed p known := by
    refine known.imp id fun member => ?_
    simp [begin] at member

variable (f after : Frontier) (explored : Explored next cells starts f)
include explored

theorem explored_step (step : f.next? next = some after) : Explored next cells starts after := by
  unfold next? at step
  split at step
  · cases step
  · rename_i p rest queue
    cases step
    have mem := mem_meet_all { f with queue := rest } (next p)
    have member : p ∈ f.queue := by simp [queue]
    -- The cell that is gone on from is a start, or has been met itself.
    have reached (k : Key) (edge : k ∈ next p) (inside : k ∈ cells) : Met next cells starts k := by
      cases explored.queued p member with
      | inl start => exact .first p k start edge inside
      | inr met => exact .step p k (explored.sound p met) edge inside
    refine ⟨fun k known => ?_, fun k waiting => ?_, fun k home => ?_, fun k left => ?_,
      fun q known => ?_⟩
    · cases (mem k).2.1.mp known with
      | inl before => exact explored.sound k before
      | inr now => exact reached k now.2 (explored.inside k now.1)
    · rw [(mem k).2.1]
      cases (mem k).1.mp waiting with
      | inl later =>
        exact (explored.queued k (queue ▸ List.mem_cons_of_mem p later)).imp_right .inl
      | inr now => exact .inr (.inr now)
    · have before := explored.covered k home
      rw [(mem k).2.1, (mem k).2.2]
      grind
    · exact explored.inside k ((mem k).2.2.mp left).1
    · have fewer (k : Key) (left : k ∈ (meetAll { f with queue := rest } (next p)).fresh) :
          k ∈ f.fresh ∧ k ∉ next p := (mem k).2.2.mp left
      rw [(mem q).1]
      by_cases here : q = p
      · exact .inr fun k edge left => (fewer k left).2 (here ▸ edge)
      · rw [(mem q).2.1] at known
        by_cases new : q ∈ f.fresh ∧ q ∈ next p
        · exact .inl (.inr new)
        · have before : q ∈ starts ∨ q ∈ f.met := known.imp_right (·.resolve_right new)
          cases explored.closed q before with
          | inl waiting =>
            rw [queue, List.mem_cons] at waiting
            exact .inl (.inl (waiting.resolve_left here))
          | inr done => exact .inr fun k edge left => done k edge (fewer k left).1

theorem explored_end (ended : f.next? next = none) (k : Key) :
    k ∈ f.met ↔ Met next cells starts k := by
  have idle := (idle_iff next f).mp ended
  refine ⟨explored.sound k, fun met => ?_⟩
  have passed (p q : Key) (known : p ∈ starts ∨ p ∈ f.met) (edge : q ∈ next p)
      (inside : q ∈ cells) : q ∈ f.met := by
    have done := (explored.closed p known).resolve_left (by simp [idle])
    exact (explored.covered q inside).resolve_left (done q edge)
  induction met with
  | first s k start edge inside => exact passed s k (.inl start) edge inside
  | step p k _ edge inside ih => exact passed p k (.inr ih) edge inside

theorem mem_finish (k : Key) : k ∈ (f.finish next).met ↔ Met next cells starts k := by
  fun_induction finish next f with
  | case1 f ended => exact explored_end next cells starts f explored ended k
  | case2 f after step ih => exact ih (explored_step next cells starts f after explored step)

end Explored

end Frontier

namespace Graph

abbrev DependsOn (g : Graph) : Key → Key → Prop := Relation.TransGen fun a b => g.reads a b = true

def OnCycle (g : Graph) (k : Key) : Prop := g.DependsOn k k

abbrev DependsWithin (g : Graph) (cells : KeySet) : Key → Key → Prop :=
  Relation.TransGen fun a b => a ∈ cells ∧ b ∈ cells ∧ g.reads a b = true

theorem formula_of_reads (g : Graph) (f k : Key) (reads : g.reads f k = true) :
    g.isFormula f = true := by
  obtain ⟨r, held, _⟩ := (reads_iff g f k).mp reads
  simp only [precedentsOf] at held
  simp only [isFormula, decide_eq_true_eq, Std.ExtTreeMap.mem_iff_isSome_getElem?]
  cases found : g.precedents[f]? with
  | none => simp [found] at held
  | some _ => rfl

theorem mem_formula_set (g : Graph) (k : Key) : k ∈ g.formulaSet ↔ g.isFormula k = true := by
  simp [formulaSet, formulas, isFormula, Std.ExtTreeSet.mem_ofList]

theorem mem_closure (g : Graph) (linked : g.Linked) (seeds : List Key) (k : Key) :
    k ∈ g.closure seeds ↔ ∃ s ∈ seeds, g.DependsOn k s := by
  have explored := Frontier.explored_begin g.dependents g.formulaSet seeds
  rw [closure, Frontier.mem_finish g.dependents g.formulaSet seeds _ explored]
  have edges (p q : Key) : q ∈ g.dependents p ↔ g.reads q p = true := mem_dependents g linked p q
  constructor
  · intro met
    induction met with
    | first s k seed edge _ => exact ⟨s, seed, .single ((edges s k).mp edge)⟩
    | step p k _ edge _ ih =>
      obtain ⟨s, seed, chain⟩ := ih
      exact ⟨s, seed, .head ((edges p k).mp edge) chain⟩
  · rintro ⟨s, seed, chain⟩
    have formula (p q : Key) (edge : g.reads p q = true) : p ∈ g.formulaSet :=
      (mem_formula_set g p).mpr (formula_of_reads g p q edge)
    induction chain using Relation.TransGen.head_induction_on with
    | single edge => exact .first s _ seed ((edges s _).mpr edge) (formula _ s edge)
    | head edge _ ih => exact .step _ _ ih ((edges _ _).mpr edge) (formula _ _ edge)

theorem note_reads_lookup (p : Key) (readers : List Key) (distinct : readers.Nodup)
    (reads : KeyMap (List Key)) (k : Key) :
    (readers.foldl (noteRead p) reads)[k]? =
      reads[k]?.map fun ps => if k ∈ readers then ps ++ [p] else ps := by
  induction readers generalizing reads with
  | nil => simp
  | cons f rest ih =>
    obtain ⟨apart, later⟩ := List.nodup_cons.mp distinct
    rw [List.foldl_cons, ih later, noteRead]
    by_cases here : f = k
    · subst here
      cases found : reads[f]? with
      | none => simp [found]
      | some ps => simp [apart]
    · have other : ∀ ps, (reads.insert f ps)[k]? = reads[k]? := by simp [lookup_insert, here]
      cases reads[f]? <;> simp [other, Ne.symm here]

theorem reads_within_lookup (g : Graph) (cells : KeySet) (k : Key) :
    (g.readsWithin cells)[k]? =
      if k ∈ cells then some (cells.toList.filter (k ∈ g.dependents ·)) else none := by
  have blank : ∀ (list : List Key) (reads : KeyMap (List Key)),
      (list.foldl (·.insert · []) reads)[k]? = if k ∈ list then some [] else reads[k]? := by
    intro list
    induction list with
    | nil => simp
    | cons p rest ih =>
      intro reads
      rw [List.foldl_cons, ih, lookup_insert]
      grind
  have noted : ∀ (list : List Key) (reads : KeyMap (List Key)),
      (list.foldl (fun reads p => (g.dependents p).foldl (noteRead p) reads) reads)[k]? =
        reads[k]?.map (· ++ list.filter (k ∈ g.dependents ·)) := by
    intro list
    induction list with
    | nil => simp
    | cons p rest ih =>
      intro reads
      rw [List.foldl_cons, ih, note_reads_lookup p _ (nodup_dependents g p) reads k]
      cases reads[k]? with
      | none => rfl
      | some ps => by_cases reader : k ∈ g.dependents p <;> simp [reader]
  refine (noted cells.toList _).trans ?_
  rw [blank]
  by_cases inside : k ∈ cells <;> simp [inside]

theorem mem_reads_within (g : Graph) (linked : g.Linked) (cells : KeySet) (k p : Key) :
    p ∈ (g.readsWithin cells)[k]?.getD [] ↔ k ∈ cells ∧ p ∈ cells ∧ g.reads k p = true := by
  rw [reads_within_lookup]
  by_cases inside : k ∈ cells <;> simp [inside, mem_dependents g linked]

-- The reads within a set, listed in any order.
def ListsReads (g : Graph) (cells : KeySet) (next : Key → List Key) : Prop :=
  ∀ k ∈ cells, ∀ p, p ∈ next k ↔ p ∈ cells ∧ g.reads k p = true

theorem lists_reads_within (g : Graph) (linked : g.Linked) (cells : KeySet) :
    g.ListsReads cells fun k => (g.readsWithin cells)[k]?.getD [] := fun k inside p => by
  rw [mem_reads_within g linked]
  exact and_iff_right inside

theorem depends_within_iff (g : Graph) (cells : KeySet) (next : Key → List Key)
    (lists : g.ListsReads cells next) (a b : Key) (inside : a ∈ cells) :
    Relation.TransGen (fun a b => b ∈ next a) a b ↔ g.DependsWithin cells a b := by
  constructor
  · intro chain
    suffices b ∈ cells ∧ g.DependsWithin cells a b from this.2
    induction chain with
    | single first =>
      obtain ⟨home, reads⟩ := (lists a inside _).mp first
      exact ⟨home, .single ⟨inside, home, reads⟩⟩
    | tail _ last ih =>
      obtain ⟨home, reads⟩ := (lists _ ih.1 _).mp last
      exact ⟨home, .tail ih.2 ⟨ih.1, home, reads⟩⟩
  · intro chain
    exact chain.lift id fun x y both => (lists x both.1 y).mpr both.2

-- A set that holds the dependents of its cells holds every chain that ends in it.
theorem depends_within_of_closed (g : Graph) (cells : KeySet)
    (closed : ∀ p ∈ cells, ∀ k, g.reads k p = true → k ∈ cells) (a b : Key) (inside : b ∈ cells)
    (chain : g.DependsOn a b) : a ∈ cells ∧ g.DependsWithin cells a b := by
  induction chain using Relation.TransGen.head_induction_on with
  | single edge =>
    have first := closed b inside _ edge
    exact ⟨first, .single ⟨first, inside, edge⟩⟩
  | head edge _ ih =>
    have first := closed _ ih.1 _ edge
    exact ⟨first, .head ⟨first, ih.1, edge⟩ ih.2⟩

-- Where no chain leads to `k`, the reads of `k` do not matter.
theorem depends_on_frame (g h : Graph) (k a b : Key)
    (same : ∀ f p, f ≠ k → g.reads f p = h.reads f p) (apart : a ≠ k) (free : ¬g.DependsOn a k)
    (chain : g.DependsOn a b) : h.DependsOn a b := by
  induction chain with
  | single edge => exact .single (same a _ apart ▸ edge)
  | tail earlier edge ih =>
    rename_i p q
    have distinct : p ≠ k := fun here => free (here ▸ earlier)
    exact .tail ih (same p q distinct ▸ edge)

-- A chain to `k` can end where it first comes to `k`, so the reads of `k` do not matter to it.
theorem depends_on_target (g h : Graph) (k a : Key)
    (same : ∀ f p, f ≠ k → g.reads f p = h.reads f p) (apart : a ≠ k) (chain : g.DependsOn a k) :
    h.DependsOn a k := by
  induction chain using Relation.TransGen.head_induction_on with
  | single edge => exact .single (same _ k apart ▸ edge)
  | head edge later ih =>
    rename_i p q
    have moved : h.reads p q = true := same p q apart ▸ edge
    by_cases here : q = k
    · exact .single (here ▸ moved)
    · exact .head moved (ih here)

-- There are finitely many formulas, so chains of reads off the cycles end.
theorem off_cycles_induction (g : Graph) (holds : Key → Prop)
    (step : ∀ k, g.isFormula k = true → ¬g.OnCycle k →
      (∀ p, g.reads k p = true → g.isFormula p = true → ¬g.OnCycle p → holds p) → holds k)
    (k : Key) (formula : g.isFormula k = true) (free : ¬g.OnCycle k) : holds k := by
  let Free : Type := { k : Key // g.isFormula k = true ∧ ¬g.OnCycle k }
  have finite : Finite Free := by
    refine Set.Finite.subset (List.finite_toSet g.formulas) fun p inside => ?_
    simpa [isFormula, formulas] using inside.1
  have trans : IsTrans Free fun p k => g.DependsOn k.1 p.1 :=
    ⟨fun _ _ _ first second => second.trans first⟩
  have irrefl : Std.Irrefl fun p k : Free => g.DependsOn k.1 p.1 := ⟨fun k => k.2.2⟩
  have founded := Finite.wellFounded_of_trans_of_irrefl fun p k : Free => g.DependsOn k.1 p.1
  have all (k : Free) : holds k.1 := by
    induction k using founded.induction with
    | _ k ih => exact step k.1 k.2.1 k.2.2 fun p edge known off => ih ⟨p, known, off⟩ (.single edge)
  exact all ⟨k, formula, free⟩

end Graph

end Spreadsheet
