import Spreadsheet.Engine.Basic
import Spreadsheet.Proofs.Engine.Context
import Spreadsheet.Proofs.Engine.Registry
import Spreadsheet.Proofs.Graph.Cyclic
import Spreadsheet.Proofs.Graph.EvaluationOrder

-- A run over what a request affects. The formulas come in an order in which none reads a later
-- one, so a formula that has been written stays settled to the end of the run, and a formula that
-- is not affected reads nothing that the run writes.

set_option autoImplicit false

namespace Spreadsheet

open Formula

-- What a run does to a store: it replaces the results of formulas in a set.
structure Recomputed (cells : KeySet) (m n : Memory) : Prop where
  sheets : m.sheets = n.sheets
  available : m.available = n.available
  inputs : ∀ k, n.inputAt k = m.inputAt k
  outside : ∀ k, k ∉ cells → n.cells[k]? = m.cells[k]?

theorem Memory.input_put (m : Memory) (k p : Key) (c : Cell) :
    (m.put k c).inputAt p = if k = p then some c.input else m.inputAt p := by
  simp only [inputAt, put, lookup_insert]
  split <;> rfl

theorem recomputed_refl (cells : KeySet) (m : Memory) : Recomputed cells m m :=
  ⟨rfl, rfl, fun _ => rfl, fun _ _ => rfl⟩

theorem recomputed_put (cells : KeySet) (m n : Memory) (k : Key) (f : FormulaCell)
    (inside : k ∈ cells) (recomputed : Recomputed cells m n)
    (input : n.inputAt k = some (.formula f.source)) :
    Recomputed cells m (n.put k (.formula f)) := by
  refine ⟨recomputed.sheets, recomputed.available, fun p => ?_, fun p outside => ?_⟩
  · rw [Memory.input_put, ← recomputed.inputs p]
    split
    · rename_i here
      exact (here ▸ input).symm
    · rfl
  · have apart : k ≠ p := fun here => outside (here ▸ inside)
    simp only [Memory.put, lookup_insert, apart, if_false]
    exact recomputed.outside p outside

section Written

variable (names : Names) (r : Registry) (m : Memory) (step : InStep names m r) (k : Key)
  (f : FormulaCell)
include step

theorem written_settled (known : k ∈ r.formulas) (input : m.inputAt k = some (.formula f.source))
    (circular : r.graph.OnCycle k → f.result = .error .circularReference)
    (computed : ¬r.graph.OnCycle k → f.result = m.computed names k f.source) :
    Settled names r.graph (m.put k (.formula f)) k := by
  intro g found
  have same : f = g := by simpa [Memory.put, lookup_insert] using found
  subst same
  refine ⟨circular, fun free => (computed free).trans ?_⟩
  refine computed_frame names m r _ step k f.source known input rfl fun p edge => ?_
  have apart : p ≠ k := by
    rintro rfl
    exact free (.single edge)
  exact edited_value k m _ (edited_put m k _) p apart

-- On a cycle it does not matter what is written, off the cycles only what the formula reads.
theorem unread_settled (d : Key) (known : d ∈ r.formulas) (distinct : d ≠ k)
    (apart : r.graph.OnCycle d ∨ r.graph.reads d k = false)
    (settled : Settled names r.graph m d) :
    Settled names r.graph (m.put k (.formula f)) d := by
  have edited := edited_put m k (.formula f)
  refine settled_frame names m r _ r.graph step d known rfl (edited.others d distinct) Iff.rfl
    (fun free p edge => edited_value k m _ edited p ?_) settled
  rintro rfl
  have unread := apart.resolve_left free
  rw [edge] at unread
  cases unread

end Written

-- A run with the formulas of `rest` to come. What it has written does not read them, unless it is
-- on a cycle and settled whatever it reads.
structure Progress (names : Names) (r : Registry) (cells : KeySet) (start : Memory)
    (rest : List Key) (m : Memory) : Prop where
  recomputed : Recomputed cells start m
  settled : ∀ k ∈ cells, k ∉ rest → Settled names r.graph m k
  apart : ∀ d ∈ cells, d ∉ rest → ∀ k ∈ rest, r.graph.OnCycle d ∨ r.graph.reads d k = false
  ordered : rest.Pairwise fun a b => r.graph.OnCycle a ∨ r.graph.reads a b = false
  distinct : rest.Nodup
  inside : ∀ k ∈ rest, k ∈ cells

-- The context of a run before its first cell.
def Registry.started {σ : Type} (r : Registry) (store : σ) (seeds : List Key) : Context σ :=
  (Context.ofFormulas store (r.plan seeds).formulas).markCyclic (r.plan seeds).cyclic.toList

-- What a request affects, by depth, with the reads listed in any order.
def Registry.arranged (r : Registry) (seeds : List Key) (next : Key → List Key) : List Key :=
  (byDepth next (r.affected seeds).toList).filter (· ∈ r.formulas)

-- The reads within what a request affects, as its plan lists them.
def Registry.listed (r : Registry) (seeds : List Key) (k : Key) : List Key :=
  (r.graph.readsWithin (r.affected seeds))[k]?.getD []

section Progress

variable (names : Names) (r : Registry) (start : Memory) (step : InStep names start r)
include step

section Arranged

variable (seeds : List Key) (next : Key → List Key)
  (lists : r.graph.ListsReads (r.affected seeds) next)

include lists

theorem mem_arranged (k : Key) : k ∈ r.arranged seeds next ↔ k ∈ r.affected seeds := by
  have ordered := Graph.by_depth_ordered r.graph (r.affected seeds) next lists
  rw [Registry.arranged, List.mem_filter, ordered.members k, decide_eq_true_eq]
  exact and_iff_left_of_imp (affected_known names start r step seeds k)

theorem progress_begin :
    Progress names r (r.affected seeds) start (r.arranged seeds next) start := by
  have listed := mem_arranged names r start step seeds next lists
  refine ⟨recomputed_refl _ start, fun k member absent => ?_, fun d member absent => ?_, ?_, ?_,
    fun k member => (listed k).mp member⟩
  · exact absurd ((listed k).mpr member) absent
  · exact absurd ((listed d).mpr member) absent
  · have members := (Graph.by_depth_ordered r.graph (r.affected seeds) next lists).members
    have ordered := Graph.by_depth_reads r.graph (r.affected seeds) next lists
    refine ((ordered.imp_of_mem fun {a b} first _ apart => ?_).filter _)
    refine apart.imp_left fun chain => ?_
    exact (r.affected_cycle step.linked seeds a ((members a).mp first)).mp chain
  · exact (Graph.by_depth_ordered r.graph (r.affected seeds) next lists).once.filter _

end Arranged

theorem progress_step (cells : KeySet) (known : ∀ k ∈ cells, k ∈ r.formulas) (k : Key)
    (rest : List Key) (m : Memory) (f : FormulaCell)
    (progress : Progress names r cells start (k :: rest) m)
    (input : m.inputAt k = some (.formula f.source))
    (circular : r.graph.OnCycle k → f.result = .error .circularReference)
    (computed : ¬r.graph.OnCycle k → f.result = m.computed names k f.source) :
    Progress names r cells start rest (m.put k (.formula f)) := by
  have member : k ∈ cells := progress.inside k List.mem_cons_self
  have present := in_step_congr names start r m progress.recomputed.sheets
    progress.recomputed.inputs step
  have ordered := List.pairwise_cons.mp progress.ordered
  have distinct := List.nodup_cons.mp progress.distinct
  refine ⟨recomputed_put cells start m k f member progress.recomputed input,
    fun d inside done => ?_, fun d inside done p later => ?_, ordered.2, distinct.2,
    fun p later => progress.inside p (List.mem_cons_of_mem k later)⟩
  · by_cases here : d = k
    · subst here
      exact written_settled names r m present d f (known d inside) input circular computed
    · have waiting : d ∉ k :: rest := by simp [here, done]
      exact unread_settled names r m present k f d (known d inside) here
        (progress.apart d inside waiting k List.mem_cons_self) (progress.settled d inside waiting)
  · by_cases here : d = k
    · exact here ▸ ordered.1 p later
    · exact progress.apart d inside (by simp [here, done]) p (List.mem_cons_of_mem k later)

end Progress

section Run

variable (names : Names) (r : Registry) (start : Memory) (step : InStep names start r)

theorem plan_formulas_lookup (seeds : List Key) (k : Key) :
    (r.plan seeds).formulas[k]? = if k ∈ r.affected seeds then r.formulas[k]? else none := by
  simp only [Registry.plan, Std.ExtTreeMap.getElem?_filter']
  cases r.formulas[k]? with
  | none => simp
  | some c => simp [Option.filter]

include step

theorem plan_cyclic_iff (seeds : List Key) (k : Key) (member : k ∈ r.affected seeds) :
    k ∈ (r.plan seeds).cyclic ↔ r.graph.OnCycle k :=
  (Graph.mem_cyclic_cells r.graph step.linked (r.affected seeds) k).trans
    (r.affected_cycle step.linked seeds k member)

theorem plan_formulas_iff (seeds : List Key) (k : Key) :
    k ∈ (r.plan seeds).formulas ↔ k ∈ r.affected seeds := by
  rw [Std.ExtTreeMap.mem_iff_isSome_getElem?, plan_formulas_lookup]
  by_cases member : k ∈ r.affected seeds
  · have known := affected_known names start r step seeds k member
    simpa [member] using known
  · simp [member]

theorem underway_begin (seeds rest : List Key) (listed : ∀ k, k ∈ rest ↔ k ∈ r.affected seeds) :
    Underway (r.plan seeds) rest start (r.started start seeds) := by
  refine ⟨rfl, rfl, fun k => ?_, fun k => ?_, fun k _ => ?_, fun k v kept => ?_,
    fun _ _ _ _ listed => ?_⟩
  · simp [Registry.started, Context.markCyclic, Context.ofFormulas, member_insert_all]
  · rw [listed, ← plan_formulas_iff names r start step seeds]
    simp [Registry.started, Context.markCyclic, Context.ofFormulas, Std.ExtTreeSet.mem_ofList]
  · simp [Registry.started, Context.markCyclic, Context.ofFormulas]
  · simp [Registry.started, Context.markCyclic, Context.ofFormulas] at kept
  · simp [Registry.started, Context.markCyclic, Context.ofFormulas] at listed

-- A formula off the cycles reads nothing that is still to come.
theorem reads_passed (seeds rest : List Key) (k : Key) (m : Memory)
    (progress : Progress names r (r.affected seeds) start (k :: rest) m)
    (free : ¬r.graph.OnCycle k) (source : String) (input : m.inputAt k = some (.formula source))
    (x : SheetRange) (bound : x ∈ m.bound k.sheet (Compiled.ofSource names source).references)
    (p : Key) (inside : x.contains p = true) : p ∉ rest ∧ p ≠ k := by
  have known := affected_known names start r step seeds k (progress.inside k List.mem_cons_self)
  have present := in_step_congr names start r m progress.recomputed.sheets
    progress.recomputed.inputs step
  have edge := (reads_bound names m r present k p source known input).mpr ⟨x, bound, inside⟩
  refine ⟨fun waiting => ?_, fun here => free (.single (here ▸ edge))⟩
  have apart := (List.pairwise_cons.mp progress.ordered).1 p waiting
  simp [edge, free] at apart

theorem evaluate_settles (available : start.available = true) (seeds rest : List Key) (k : Key)
    (m : Memory) (c : Context Memory)
    (underway : Underway (r.plan seeds) (k :: rest) m c)
    (progress : Progress names r (r.affected seeds) start (k :: rest) m) (source : String)
    (input : m.inputAt k = some (.formula source)) :
    ∃ v sheets, let d : Context Memory := { c with pending := c.pending.erase k, sheets }
      (∀ compute, (Context.evaluateOver compute k).Returns c v (d.remember k v)) ∧
        Underway (r.plan seeds) rest m d ∧
        (r.graph.OnCycle k → v = .error .circularReference) ∧
        (¬r.graph.OnCycle k → v = m.computed names k source) := by
  have member := progress.inside k List.mem_cons_self
  have known := affected_known names start r step seeds k member
  have later := (List.nodup_cons.mp progress.distinct).1
  have cyclic := plan_cyclic_iff names r start step seeds k member
  by_cases looping : r.graph.OnCycle k
  · have evaluated := Context.evaluate_cyclic_returns (r.plan seeds) rest m c k underway later
      (cyclic.mpr looping)
    have begun := Context.underway_begun (r.plan seeds) rest m c k underway later
    exact ⟨_, c.sheets, evaluated, begun, fun _ => rfl, fun free => absurd looping free⟩
  · have present := in_step_congr names start r m progress.recomputed.sheets
      progress.recomputed.inputs step
    obtain ⟨found, readable⟩ := known_formula names m r present k known source input
    have planned : (r.plan seeds).formulas[k]? = some (.ofSource names source) := by
      rw [plan_formulas_lookup, if_pos member, found]
    obtain ⟨sheets, evaluated, after⟩ := Context.evaluate_free_returns (r.plan seeds) rest m c k
      underway later (progress.recomputed.available ▸ available) (mt cyclic.mp looping) _ planned
      readable (reads_passed names r start step seeds rest k m progress looping source input)
    exact ⟨_, sheets, evaluated, after, fun bad => absurd bad looping, fun _ => rfl⟩

-- Between two evaluations of a run, with the formulas of `rest` to come.
structure Midway (names : Names) (r : Registry) (start : Memory) (seeds rest : List Key)
    (c : Context Memory) : Prop where
  underway : Underway (r.plan seeds) rest c.store c
  progress : Progress names r (r.affected seeds) start rest c.store
  kept : Kept (r.plan seeds) rest c

theorem midway_begin (seeds : List Key) (next : Key → List Key)
    (lists : r.graph.ListsReads (r.affected seeds) next) :
    Midway names r start seeds (r.arranged seeds next) (r.started start seeds) := by
  have listed := mem_arranged names r start step seeds next lists
  refine ⟨underway_begin names r start step seeds _ listed,
    progress_begin names r start step seeds next lists, fun p planned absent => ?_⟩
  have member := (plan_formulas_iff names r start step seeds p).mp planned
  exact absurd ((listed p).mpr member) absent

-- The evaluation of one formula and the write of its result.
theorem midway_step (available : start.available = true) (seeds rest : List Key) (k : Key)
    (c : Context Memory) (midway : Midway names r start seeds (k :: rest) c) :
    ∃ source v d, (Context.evaluate k).Returns c v d ∧
      d.formulas[k]? = some (.ofSource names source) ∧ d.store = c.store ∧
      ∀ f : FormulaCell, f.source = source → f.result = v →
        Midway names r start seeds rest { d with store := c.store.put k (.formula f) } := by
  obtain ⟨underway, progress, kept⟩ := midway
  have member := progress.inside k List.mem_cons_self
  have known := affected_known names start r step seeds k member
  have later := (List.nodup_cons.mp progress.distinct).1
  obtain ⟨source, input, found⟩ := stored_formula names start r step k known
  rw [← progress.recomputed.inputs k] at input
  obtain ⟨v, sheets, evaluated, after, circular, computed⟩ := evaluate_settles names r start step
    available seeds rest k c.store c underway progress source input
  let d : Context Memory := { c with pending := c.pending.erase k, sheets }
  refine ⟨source, v, d.remember k v, evaluated _, ?_, rfl, fun f sourced shown => ?_⟩
  · change c.formulas[k]? = _
    rw [underway.formulas, plan_formulas_lookup, if_pos member, found]
  · subst sourced shown
    refine ⟨Context.underway_written (r.plan seeds) rest c.store d k f after later,
      progress_step names r start step (r.affected seeds)
        (affected_known names start r step seeds) k rest c.store f progress input circular computed,
      fun p planned passed => ?_⟩
    by_cases here : p = k
    · simp [Context.remember, d, here]
    · have before := kept p planned (List.not_mem_cons_of_ne_of_not_mem here passed)
      simp [Context.remember, d, before]

theorem run_from_settles (e : Engine Memory) (available : start.available = true)
    (seeds list rest : List Key) (n : Nat) (c : Context Memory)
    (midway : Midway names r start seeds (list ++ rest) c) :
    ∃ report d, (e.runFrom n list).Returns c report d ∧
      Midway names r start seeds (report.notEvaluated ++ rest) d ∧
      (report.timedOut = false → report.notEvaluated = []) ∧
      (e.options.timeout? = none → report.timedOut = false) := by
  induction list generalizing n c with
  | nil => exact ⟨_, c, returns_pure c _, midway, fun _ => rfl, fun _ => rfl⟩
  | cons k list ih =>
    by_cases late : e.expired n = true
    · have stopped : (e.runFrom n (k :: list)).Returns c ⟨[], k :: list, true⟩ c := by
        simp only [Engine.runFrom, late, if_true]
        exact returns_pure c _
      have timed : e.options.timeout? ≠ none := by
        intro untimed
        simp [Engine.expired, untimed] at late
      exact ⟨_, c, stopped, midway, nofun, fun untimed => absurd untimed timed⟩
    · obtain ⟨source, v, d, evaluated, planned, store, written⟩ :=
        midway_step names r start step available seeds (list ++ rest) k c midway
      let f := ((FormulaCell.uncomputed source).withResult v).withReferences
        (e.registry.graph.precedentsOf k)
      obtain ⟨report, u, finished, after, complete, timely⟩ := ih (n + 1) _ (written f rfl rfl)
      refine ⟨{ report with outcomes := .of k v :: report.outcomes }, u, ?_, after, complete,
        timely⟩
      have switched : c.store.available = true :=
        midway.progress.recomputed.available ▸ available
      have wrote := Context.calling_writing_returns c.store switched d (·.put k (.formula f)) store
      simp only [Engine.runFrom, late, Bool.false_eq_true, if_false]
      refine returns_bind _ _ c _ u v _ evaluated ?_
      refine returns_bind _ _ _ _ u _ _ (returns_get _) ?_
      simp only [planned]
      exact returns_bind _ _ _ _ u _ _ wrote (returns_bind _ _ _ u u _ _ finished (returns_pure u _))

end Run

-- A formula that is not affected reads no result that has been replaced.
theorem recomputed_settled (names : Names) (m n : Memory) (r : Registry) (step : InStep names m r)
    (seeds : List Key) (recomputed : Recomputed (r.affected seeds) m n) (k : Key)
    (known : k ∈ r.formulas) (outside : k ∉ r.affected seeds)
    (settled : Settled names r.graph m k) : Settled names r.graph n k := by
  refine settled_frame names m r n r.graph step k known recomputed.sheets
    (recomputed.outside k outside) Iff.rfl (fun _ p edge => ?_) settled
  have apart : p ∉ r.affected seeds := fun inside =>
    outside (r.affected_closed step.linked seeds p inside k edge)
  simp only [Memory.value, recomputed.outside p apart]

namespace Engine

abbrev started {σ : Type} (e : Engine σ) (seeds : List Key) : Context σ :=
  e.registry.started e.store seeds

theorem run_eq {σ : Type} [CellStore σ] (e : Engine σ) (seeds : List Key) :
    (run seeds).run.run e =
      let ran := (e.runFrom 0 (e.registry.plan seeds).order).run.run (e.started seeds)
      (ran.1, { e with store := ran.2.store }) :=
  rfl

-- A run that lists the reads within its plan in an order of its own.
def runIn {σ : Type} [CellStore σ] (next : Key → List Key) (seeds : List Key) :
    Attempt (Engine σ) Report :=
  ExceptT.mk fun e =>
    let (result, context) :=
      (e.runFrom 0 (e.registry.arranged seeds next)).run.run (e.started seeds)
    (result, { e with store := context.store })

section Order

variable {σ : Type} [CellStore σ] (e : Engine σ) (next : Key → List Key) (seeds : List Key)

theorem run_in_eq :
    (runIn next seeds).run.run e =
      let ran := (e.runFrom 0 (e.registry.arranged seeds next)).run.run (e.started seeds)
      (ran.1, { e with store := ran.2.store }) :=
  rfl

theorem run_in_listed :
    (run seeds).run.run e = (runIn (e.registry.listed seeds) seeds).run.run e :=
  (run_eq e seeds).trans (run_in_eq e (e.registry.listed seeds) seeds).symm

theorem run_in_returns (report : Report) (d : Context σ)
    (ran : (e.runFrom 0 (e.registry.arranged seeds next)).Returns (e.started seeds) report d) :
    (runIn next seeds).Returns e report { e with store := d.store } := by
  unfold Attempt.Returns at *
  rw [run_in_eq, ran]

theorem run_in_split (report : Report) (u : Engine σ)
    (ran : (runIn next seeds).Returns e report u) :
    ∃ d, (e.runFrom 0 (e.registry.arranged seeds next)).Returns (e.started seeds) report d ∧
      u = { e with store := d.store } := by
  have same := (run_in_eq e next seeds).symm.trans ran
  have answered : ((e.runFrom 0 (e.registry.arranged seeds next)).run.run (e.started seeds)).1 =
      .ok report := congrArg Prod.fst same
  exact ⟨_, Prod.ext answered rfl, (congrArg Prod.snd same).symm⟩

theorem run_returns (report : Report) (d : Context σ)
    (ran : (e.runFrom 0 (e.registry.plan seeds).order).Returns (e.started seeds) report d) :
    (run seeds).Returns e report { e with store := d.store } := by
  unfold Attempt.Returns
  rw [run_in_listed]
  exact run_in_returns e (e.registry.listed seeds) seeds report d ran

end Order

end Engine

section Settles

variable (names : Names) (e : Engine Memory) (untimed : e.options.timeout? = none)
  (available : e.store.available = true) (step : InStep names e.store e.registry)
  (seeds : List Key)
include untimed available step

-- A run settles every formula that it affects and unsettles none.
theorem run_in_settles (next : Key → List Key)
    (lists : e.registry.graph.ListsReads (e.registry.affected seeds) next) :
    ∃ report m, (Engine.runIn next seeds).Returns e report { e with store := m } ∧
      Recomputed (e.registry.affected seeds) e.store m ∧
      ∀ k ∈ e.registry.formulas, k ∈ e.registry.affected seeds ∨
        Settled names e.registry.graph e.store k → Settled names e.registry.graph m k := by
  have begun := midway_begin names e.registry e.store step seeds next lists
  obtain ⟨report, d, ran, midway, complete, timely⟩ := run_from_settles names e.registry e.store
    step e available seeds (e.registry.arranged seeds next) [] 0 (e.started seeds)
    (by rw [List.append_nil]; exact begun)
  have progress := midway.progress
  rw [complete (timely untimed), List.append_nil] at progress
  refine ⟨report, d.store, ?_, progress.recomputed, fun k known before => ?_⟩
  · exact Engine.run_in_returns e next seeds report d ran
  · by_cases member : k ∈ e.registry.affected seeds
    · exact progress.settled k member List.not_mem_nil
    · exact recomputed_settled names e.store d.store e.registry step seeds progress.recomputed k
        known member (before.resolve_left member)

theorem run_settles :
    ∃ report m, (Engine.run seeds).Returns e report { e with store := m } ∧
      Recomputed (e.registry.affected seeds) e.store m ∧
      ∀ k ∈ e.registry.formulas, k ∈ e.registry.affected seeds ∨
        Settled names e.registry.graph e.store k → Settled names e.registry.graph m k := by
  obtain ⟨report, m, ran, settles⟩ := run_in_settles names e untimed available step seeds
    (e.registry.listed seeds)
    (Graph.lists_reads_within e.registry.graph step.linked (e.registry.affected seeds))
  exact ⟨report, m, (Engine.run_in_listed e seeds).trans ran, settles⟩

end Settles

end Spreadsheet
