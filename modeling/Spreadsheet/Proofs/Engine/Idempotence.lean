import Spreadsheet.Proofs.Engine.Histories
import Spreadsheet.Proofs.Engine.Reports
import Spreadsheet.Proofs.Engine.Timed
import Spreadsheet.Proofs.Graph.Shift

-- Recalculations twice in a row. What a recalculation leaves does not depend on the results that
-- were stored before, as these are replaced before any formula reads them. So a second one finds
-- the same values, in whatever order either of them goes.

set_option autoImplicit false

namespace Spreadsheet

open Formula

-- A store after a run over what the seeds affect: in these cells it has what the run has written.
structure Evaluated (names : Names) (r : Registry) (seeds : List Key) (start m : Memory) : Prop
    where
  recomputed : Recomputed (r.affected seeds) start m
  settled : ∀ k ∈ r.affected seeds, Settled names r.graph m k
  written : ∀ k ∈ r.affected seeds, ∃ formula, r.formulas[k]? = some formula ∧
    m.cells[k]? = some (.formula (r.resultCell k formula (m.value k)))

section Evaluated

variable (names : Names) (r : Registry) (seeds : List Key) (start m n : Memory)
  (step : InStep names start r)
include step

theorem evaluated_in_step (evaluated : Evaluated names r seeds start m) : InStep names m r :=
  in_step_congr names start r m evaluated.recomputed.sheets evaluated.recomputed.inputs step

-- The affected formulas are settled in both stores, the other cells are as they were.
theorem evaluated_again (first : Evaluated names r seeds start m)
    (second : Evaluated names r seeds m n) : n = m := by
  have present := evaluated_in_step names r seeds start m step first
  have values (k : Key) : m.value k = n.value k := by
    refine settled_values names m n r present second.recomputed.sheets
      (fun k => (second.recomputed.inputs k).symm) (fun k => ?_) k
    by_cases member : k ∈ r.affected seeds
    · exact .inr ⟨affected_known names m r present seeds k member, first.settled k member,
        second.settled k member⟩
    · exact .inl (by simp only [Memory.value, second.recomputed.outside k member])
  have cells : n.cells = m.cells := by
    refine Std.ExtTreeMap.ext_getElem? fun k => ?_
    by_cases member : k ∈ r.affected seeds
    · obtain ⟨formula, found, before⟩ := first.written k member
      obtain ⟨other, again, after⟩ := second.written k member
      obtain rfl : formula = other := Option.some.inj (found.symm.trans again)
      rw [before, after, values k]
    · exact second.recomputed.outside k member
  obtain ⟨sheets, _, available⟩ := m
  obtain ⟨_, _, _⟩ := n
  cases second.recomputed.sheets
  cases second.recomputed.available
  cases cells
  rfl

end Evaluated

-- The report of a run in an order of its own that has left `m`.
def Registry.reportOf (r : Registry) (seeds : List Key) (next : Key → List Key) (m : Memory) :
    Report :=
  { outcomes := (r.arranged seeds next).map fun k => .of k (m.value k)
    notEvaluated := []
    timedOut := false }

namespace Engine

-- A recalculation that lists the reads within its plan in an order of its own.
def recalculateIn {σ : Type} [CellStore σ] (next : Key → List Key) (sheet : SheetId)
    (addresses : List Address) : Attempt (Engine σ) Report := do
  let seeds := addresses.map fun a => (⟨sheet, a⟩ : Key)
  holding ((← get).lockClosure seeds (.ofList (seeds.map Key.sheet))) (runIn next seeds)

theorem recalculate_listed {σ : Type} [CellStore σ] (e : Engine σ) (sheet : SheetId)
    (addresses : List Address) :
    let seeds := addresses.map fun a => (⟨sheet, a⟩ : Key)
    (recalculate sheet addresses).run.run e =
      (recalculateIn (e.registry.listed seeds) sheet addresses).run.run e := by
  intro seeds
  let guard := e.lockClosure seeds (.ofList (seeds.map Key.sheet))
  let locked : Engine σ := { e with locks := (e.locks.acquire guard).2 }
  exact congrArg (fun ran => (ran.1, { ran.2 with locks := ran.2.locks.release ⟨guard⟩ }))
    (run_in_listed locked seeds)

section Runs

variable (e : Engine Memory) (ready : Ready e) (next : Key → List Key)
include ready

theorem run_in_evaluates (seeds : List Key)
    (lists : e.registry.graph.ListsReads (e.registry.affected seeds) next) :
    ∃ m, (runIn next seeds).Returns e (e.registry.reportOf seeds next m) { e with store := m } ∧
      Evaluated e.options.names e.registry seeds e.store m := by
  obtain ⟨report, m, ran, recomputed, settles⟩ := run_in_settles e.options.names e ready.untimed
    ready.available ready.step seeds next lists
  have reported := run_in_reports id memory_recording e next seeds lists report _ ran
  have listed := mem_arranged e.options.names e.registry e.store ready.step seeds next lists
  have timely := reported.timely ready.untimed
  have none := reported.complete timely
  have keys := reported.listed
  rw [none, List.append_nil] at keys
  have whole : report = e.registry.reportOf seeds next m := by
    have outcomes := reported_outcomes e _ _ report _ _ reported
    rw [keys] at outcomes
    obtain ⟨_, _, _⟩ := report
    cases outcomes
    cases none
    cases timely
    rfl
  refine ⟨m, whole ▸ ran, recomputed, fun k member => ?_, fun k member => ?_⟩
  · exact settles k (affected_known _ e.store e.registry ready.step seeds k member) (.inl member)
  · obtain ⟨o, shown, rfl⟩ := List.mem_map.mp (keys ▸ (listed k).mpr member : k ∈ report.keys)
    obtain ⟨formula, found, written⟩ := reported.written o shown
    rw [plan_formulas_lookup, if_pos member] at found
    have value : m.value o.key = o.value :=
      reported_value e _ _ report _ m reported o shown
    rw [value]
    exact ⟨formula, found, written⟩

theorem recalculate_in_evaluates (sheet : SheetId) (addresses : List Address)
    (lists : e.registry.graph.ListsReads
      (e.registry.affected (addresses.map (⟨sheet, ·⟩))) next) :
    let seeds := addresses.map fun a => (⟨sheet, a⟩ : Key)
    ∃ m locks, (recalculateIn next sheet addresses).Returns e (e.registry.reportOf seeds next m)
        { e with store := m, locks } ∧
      Evaluated e.options.names e.registry seeds e.store m := by
  intro seeds
  let guard := e.lockClosure seeds (.ofList (seeds.map Key.sheet))
  let locked : Engine Memory := { e with locks := (e.locks.acquire guard).2 }
  obtain ⟨m, ran, evaluated⟩ := run_in_evaluates locked (ready_locks e _ ready) next seeds lists
  refine ⟨m, locked.locks.release ⟨guard⟩, ?_, evaluated⟩
  exact returns_bind _ _ e e _ e _ (returns_get e) (holding_returns guard _ e _ _ ran)

-- The second recalculation reports what the first one has left, and leaves it as it is.
theorem recalculated_again (second : Key → List Key) (sheet : SheetId) (addresses : List Address)
    (lists : e.registry.graph.ListsReads
      (e.registry.affected (addresses.map (⟨sheet, ·⟩))) next)
    (listsSecond : e.registry.graph.ListsReads
      (e.registry.affected (addresses.map (⟨sheet, ·⟩))) second) :
    let seeds := addresses.map fun a => (⟨sheet, a⟩ : Key)
    ∃ u v, (recalculateIn next sheet addresses).Returns e
        (e.registry.reportOf seeds next u.store) u ∧
      (recalculateIn second sheet addresses).Returns u
        (e.registry.reportOf seeds second u.store) v ∧
      v.store = u.store ∧ u.registry = e.registry := by
  intro seeds
  obtain ⟨m, locks, ran, evaluated⟩ :=
    recalculate_in_evaluates e ready next sheet addresses lists
  let u : Engine Memory := { e with store := m, locks }
  have after : Ready u := ⟨evaluated.recomputed.available ▸ ready.available, ready.untimed,
    evaluated_in_step _ _ seeds e.store m ready.step evaluated⟩
  obtain ⟨n, free, again, repeated⟩ :=
    recalculate_in_evaluates u after second sheet addresses listsSecond
  obtain rfl : n = m :=
    evaluated_again _ e.registry seeds e.store m n ready.step evaluated repeated
  exact ⟨u, _, ran, again, rfl, rfl⟩

end Runs

end Engine

section Arranged

variable (names : Names) (r : Registry) (m : Memory) (step : InStep names m r) (seeds : List Key)
  (first second : Key → List Key)
  (listsFirst : r.graph.ListsReads (r.affected seeds) first)
  (listsSecond : r.graph.ListsReads (r.affected seeds) second)

include listsFirst in
theorem nodup_arranged : (r.arranged seeds first).Nodup :=
  (Graph.by_depth_ordered r.graph (r.affected seeds) first listsFirst).once.filter _

include step listsFirst listsSecond

theorem arranged_perm : (r.arranged seeds first).Perm (r.arranged seeds second) := by
  refine (List.perm_ext_iff_of_nodup (nodup_arranged r seeds first listsFirst)
    (nodup_arranged r seeds second listsSecond)).mpr fun k => ?_
  rw [mem_arranged names r m step seeds first listsFirst,
    mem_arranged names r m step seeds second listsSecond]

theorem arranged_unique (acyclic : ∀ k ∈ r.affected seeds, ¬r.graph.OnCycle k) :
    r.arranged seeds first = r.arranged seeds second := by
  have one := Graph.by_depth_ordered r.graph (r.affected seeds) first listsFirst
  have other := Graph.by_depth_ordered r.graph (r.affected seeds) second listsSecond
  refine congrArg (List.filter _) (Graph.ordered_unique r.graph _ (fun k chain => ?_) _ _ one other)
  obtain ⟨_, edge, _⟩ := Relation.TransGen.head'_iff.mp chain
  exact acyclic k edge.1 ((r.affected_cycle step.linked seeds k edge.1).mp chain)

end Arranged

-- A recalculation done twice reports the same twice, and the second one changes nothing. Off the
-- cycles also the order is the same, in whatever order either of them visits the reads.
theorem recalculation_idempotent (e : Engine Memory) (ready : Ready e) (sheet : SheetId)
    (addresses : List Address) :
    let seeds := addresses.map fun a => (⟨sheet, a⟩ : Key)
    let cells := e.registry.affected seeds
    (∃ report u v, (Engine.recalculate sheet addresses).Returns e report u ∧
      (Engine.recalculate sheet addresses).Returns u report v ∧ v.store = u.store ∧
      report.keys.Nodup ∧ ∀ k, k ∈ report.keys ↔ k ∈ cells) ∧
    ∀ first second, e.registry.graph.ListsReads cells first →
      e.registry.graph.ListsReads cells second →
      ∃ one u two v, (Engine.recalculateIn first sheet addresses).Returns e one u ∧
        (Engine.recalculateIn second sheet addresses).Returns u two v ∧ v.store = u.store ∧
        one.keys.Nodup ∧ (∀ k, k ∈ one.keys ↔ k ∈ cells) ∧ two.outcomes.Perm one.outcomes ∧
        ((∀ k ∈ cells, ¬e.registry.graph.OnCycle k) → two = one) := by
  intro seeds cells
  have keys (next : Key → List Key) (m : Memory) :
      (e.registry.reportOf seeds next m).keys = e.registry.arranged seeds next := by
    simp [Registry.reportOf, Report.keys, Outcome.of, Function.comp_def]
  have listed (next : Key → List Key) (lists : e.registry.graph.ListsReads cells next) :=
    mem_arranged e.options.names e.registry e.store ready.step seeds next lists
  constructor
  · have own : e.registry.graph.ListsReads cells (e.registry.listed seeds) :=
      Graph.lists_reads_within e.registry.graph ready.step.linked cells
    obtain ⟨u, v, ran, again, same, registry⟩ :=
      Engine.recalculated_again e ready _ _ sheet addresses own own
    refine ⟨_, u, v, (Engine.recalculate_listed e sheet addresses).trans ran, ?_, same, ?_, ?_⟩
    · have relisted := Engine.recalculate_listed u sheet addresses
      rw [registry] at relisted
      exact relisted.trans again
    · rw [keys]
      exact nodup_arranged e.registry seeds _ own
    · intro k
      rw [keys, listed _ own]
  · intro first second listsFirst listsSecond
    obtain ⟨u, v, ran, again, same, _⟩ :=
      Engine.recalculated_again e ready first second sheet addresses listsFirst listsSecond
    refine ⟨_, u, _, v, ran, again, same, ?_, ?_, ?_, fun acyclic => ?_⟩
    · rw [keys]
      exact nodup_arranged e.registry seeds _ listsFirst
    · intro k
      rw [keys, listed _ listsFirst]
    · exact (arranged_perm _ _ _ ready.step seeds _ _ listsSecond listsFirst).map _
    · rw [Registry.reportOf, Registry.reportOf,
        arranged_unique _ _ _ ready.step seeds _ _ listsFirst listsSecond acyclic]

-- Two cells that read each other and one that reads them both, all with stale results. One of them
-- is given twice, and the second recalculation visits all reads the other way round.
theorem recalculation_idempotent_behind_cycle :
    let a : Key := ⟨⟨1⟩, ⟨1, 1⟩⟩
    let b : Key := ⟨⟨1⟩, ⟨2, 1⟩⟩
    let c : Key := ⟨⟨1⟩, ⟨3, 1⟩⟩
    let stale (source : String) : Cell := .formula ⟨source, .text "stale", none, []⟩
    let m : Memory := (((⟨[⟨⟨1⟩, ⟨1⟩, "Main"⟩], ∅, true⟩ : Memory).put a (stale "=A2")).put b
      (stale "=Main!A1")).put c (stale "=SUM(A1:A2)")
    let e := Request.attemptAll (Engine.ofStore m ⟨none, .empty⟩ id) [(.loadSheet ⟨1⟩, id)]
    let addresses := [a.addr, c.addr, a.addr]
    let cells := e.registry.affected [a, c, a]
    let next := e.registry.listed [a, c, a]
    let back (k : Key) : List Key := (next k).reverse
    Ready e ∧ e.registry.graph.ListsReads cells next ∧ e.registry.graph.ListsReads cells back ∧
      cells.toList = [a, b, c] ∧ ∃ one u two v,
        (Engine.recalculateIn next ⟨1⟩ addresses).Returns e one u ∧
        (Engine.recalculateIn back ⟨1⟩ addresses).Returns u two v ∧ v.store = u.store ∧
        one.keys.Nodup ∧ (∀ k, k ∈ one.keys ↔ k ∈ cells) ∧ two.outcomes.Perm one.outcomes := by
  intro a b c stale m e addresses cells next back
  have new := bound_new m rfl ⟨none, .empty⟩ id (readable_of_list m _ (by decide +kernel))
  obtain ⟨bound, options⟩ := attempts_bound _ new [(.loadSheet ⟨1⟩, id)] (by decide +kernel)
  have ready : Ready e := ⟨bound.available, congrArg Options.timeout? options, bound.step⟩
  have lists : e.registry.graph.ListsReads cells next :=
    Graph.lists_reads_within e.registry.graph ready.step.linked cells
  have reversed : e.registry.graph.ListsReads cells back := fun k inside p =>
    List.mem_reverse.trans (lists k inside p)
  obtain ⟨one, u, two, v, ran, again, same, once, keys, outcomes, _⟩ :=
    (recalculation_idempotent e ready ⟨1⟩ addresses).2 next back lists reversed
  exact ⟨ready, lists, reversed, by decide +kernel, one, u, two, v, ran, again, same, once, keys,
    outcomes⟩

end Spreadsheet
