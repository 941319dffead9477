import Spreadsheet.Proofs.Engine.Timed

-- A run never evaluates one formula under another. The plan puts a formula after those that it
-- reads, so their results are kept when it asks for them, whether as cells or within ranges.

set_option autoImplicit false

namespace Spreadsheet

open Formula

namespace Formula

-- The cells that a question is about.
def Query.Includes : Query → Key → Prop
  | .cell k, p => p = k
  | .range r, p => r.contains p = true
  | .sheet _ _, _ => False

-- While a reading is run from the state `s`, it puts a question in the state `t`.
inductive Reading.Puts {σ α : Type} (act : (q : Query) → Attempt σ q.Answer) :
    Reading α → σ → Query → σ → Prop
  | now (q : Query) (next : q.Answer → Reading α) (s : σ) : Puts act (.ask q next) s q s
  | later (q p : Query) (next : q.Answer → Reading α) (s t u : σ) (answer : q.Answer)
      (answered : (act q).Returns s answer u) (puts : Puts act (next answer) u p t) :
      Puts act (.ask q next) s p t

theorem Reading.puts_asked {σ α : Type} (answer : (q : Query) → q.Answer) (asked : Query → Prop)
    (act : (q : Query) → Attempt σ q.Answer) (invariant : σ → Prop)
    (replies : ∀ q s, asked q → invariant s →
      ∃ u, (act q).Returns s (answer q) u ∧ invariant u) (t : Reading α) (p : Query) (s u : σ)
    (puts : t.Puts act s p u) (within : t.Within (fun q => .ok (answer q)) asked)
    (holds : invariant s) : asked p ∧ invariant u := by
  induction puts with
  | now q next s => exact ⟨within.1, holds⟩
  | later q p next s t u reply answered _ ih =>
    obtain ⟨v, replied, kept⟩ := replies q s within.1 holds
    obtain ⟨rfl, rfl⟩ := returns_unique _ s u v reply (answer q) answered replied
    exact ih (within.2 _ rfl) kept

end Formula

theorem accounted_includes (m : Memory) (home : SheetId) (refs : List Reference) (q : Query)
    (p : Key) (accounted : Accounted home m.resolver refs q) (includes : q.Includes p) :
    ∃ x ∈ m.bound home refs, x.contains p = true := by
  cases q with
  | cell k =>
    obtain ⟨r, member, bound⟩ := accounted
    exact ⟨_, List.mem_filterMap.mpr ⟨r, member, bound⟩, (contains_of_key k p).mpr includes⟩
  | range x =>
    obtain ⟨r, member, bound⟩ := accounted
    exact ⟨x, List.mem_filterMap.mpr ⟨r, member, bound⟩, includes⟩
  | sheet home name => cases includes

namespace Context

-- What the evaluation of `k` under a plan finds in the context `c`. Its formula asks for no cell
-- that is under evaluation, and the formulas of the plan that it asks for have kept results; what
-- an evaluation under it would do makes no difference; and no cell is marked.
structure Unnested (plan : Plan) (k : Key) (c : Context Memory) : Prop where
  kept : ∀ formula, plan.formulas[k]? = some formula → k ∉ plan.cyclic →
    ∀ q s, (formula.evaluate k.sheet).Puts
        (answerWith (cellValue (Path.root.push k)) (Path.root.push k))
        { c with pending := c.pending.erase k } q s →
      ∀ p, q.Includes p →
        (Path.root.push k).contains p = false ∧ (p ∈ plan.formulas → p ∈ s.cache)
  alone : ∀ compute, (evaluateOver compute k).run.run c = (evaluate k).run.run c
  unmarked : (evaluate k).Ends c fun _ d => d.cyclic = c.cyclic

end Context

-- Whenever a run comes to a cell in time, it evaluates this cell and no other under it.
def Engine.RunsFlat (e : Engine Memory) (seeds : List Key) : Prop :=
  let plan := e.registry.plan seeds
  ∀ before k rest report c, plan.order = before ++ k :: rest →
    (e.runFrom 0 before).Returns (e.started seeds) report c → report.timedOut = false →
      Context.Unnested plan k c

theorem midway_unnested (names : Names) (r : Registry) (start : Memory)
    (step : InStep names start r) (available : start.available = true) (seeds rest : List Key)
    (k : Key) (c : Context Memory) (midway : Midway names r start seeds (k :: rest) c) :
    Context.Unnested (r.plan seeds) k c := by
  obtain ⟨underway, progress, kept⟩ := midway
  have member := progress.inside k List.mem_cons_self
  have later := (List.nodup_cons.mp progress.distinct).1
  have known := affected_known names start r step seeds k member
  have present := in_step_congr names start r c.store progress.recomputed.sheets
    progress.recomputed.inputs step
  obtain ⟨source, input, found⟩ := stored_formula names c.store r present k known
  obtain ⟨v, sheets, evaluated, _⟩ := evaluate_settles names r start step available seeds rest k
    c.store c underway progress source input
  have itself := evaluated (Context.computeWith (Context.cellAt (maxNesting - 2)))
  rw [← Context.evaluate_over] at itself
  constructor
  · intro formula planned free q s puts p includes
    rw [plan_formulas_lookup, if_pos member, found] at planned
    obtain rfl := Option.some.inj planned
    have off := mt (plan_cyclic_iff names r start step seeds k member).mpr free
    have passed := reads_passed names r start step seeds rest k c.store progress off source input
    have readable := (known_formula names c.store r present k known source input).2
    have begun := Context.underway_begun (r.plan seeds) rest c.store c k underway later
    obtain ⟨accounted, looked, rfl, _⟩ := Reading.puts_asked c.store.answer _ _
      (Context.Aside (r.plan seeds) rest c.store { c with pending := c.pending.erase k })
      (fun q s accounted aside => by
        obtain ⟨u, answered, after⟩ := Context.answers_underway (r.plan seeds) rest c.store c k
          (progress.recomputed.available ▸ available) _ readable passed q s accounted aside
        exact ⟨u, answered (Context.computeWith (Context.cellAt (maxNesting - 2))), after⟩)
      _ q _ s puts (Memory.compiled_bounded _ k.sheet c.store.resolver) ⟨c.sheets, rfl, begun⟩
    obtain ⟨x, bound, inside⟩ := accounted_includes c.store k.sheet _ q p accounted includes
    obtain ⟨waiting, apart⟩ := passed x bound p inside
    refine ⟨?_, fun planned => ?_⟩
    · simpa [Path.contains, Path.push, Path.root] using apart
    · exact kept p planned (List.not_mem_cons_of_ne_of_not_mem apart waiting)
  · intro compute
    exact (evaluated compute).trans itself.symm
  · unfold Attempt.Ends
    rw [itself]
    rfl

theorem run_flat (e : Engine Memory) (bound : Bound e) (seeds : List Key) : e.RunsFlat seeds := by
  intro before k rest report c split ran timely
  obtain ⟨other, d, returned, midway, complete, _⟩ :=
    run_midway e bound.available bound.step seeds before (k :: rest) split
  obtain ⟨rfl, rfl⟩ := returns_unique _ _ c d report other ran returned
  rw [complete timely] at midway
  exact midway_unnested e.options.names e.registry e.store bound.step bound.available seeds rest k
    c midway

-- Every request but the loading of a sheet comes to a run. The plan of a run lists the formulas
-- that the request affects, all of them, and the run evaluates none of these under another.
theorem evaluations_never_nest (m : Memory) (available : m.available = true) (options : Options)
    (clock : Nat → Nat) (stored : m.Readable options.names)
    (history : List (Request × (Nat → Nat)))
    (readable : ∀ timed ∈ history, timed.1.Ascii options.names) (request : Request)
    (ascii : request.Ascii options.names) (now : Nat → Nat) :
    let e := { Request.attemptAll (Engine.ofStore m options clock) history with clock := now }
    ∃ u, request.perform.Returns e () u ∧
      ((∀ sheet, request ≠ .loadSheet sheet) → ∃ d, request.Starts e d) ∧
        ∀ d, request.Starts e d →
          let seeds := request.seeds d.registry
          (∃ report v locks, (Engine.run seeds).Returns d report v ∧ u = { v with locks }) ∧
            (∀ k, k ∈ (d.registry.plan seeds).order ↔ k ∈ d.registry.graph.closure seeds ∨
              k ∈ seeds ∧ d.registry.graph.isFormula k = true) ∧ d.RunsFlat seeds := by
  intro e
  have new := bound_new m available options clock stored
  obtain ⟨reached, same⟩ := attempts_bound _ new history readable
  have bound : Bound e := bound_clock _ now reached
  have typed : request.Ascii e.options.names := same ▸ ascii
  obtain ⟨u, performed, _⟩ := request_bound e bound request typed
  refine ⟨u, performed, starts_exist e bound request, fun d starts => ?_⟩
  intro seeds
  obtain ⟨before, _⟩ := starts_bound e bound request typed d starts
  obtain ⟨report, v, ran, _⟩ := run_bound d before seeds
  obtain ⟨locks, other⟩ := starts_perform e request d starts report v ran
  have whole := in_step_whole d.options.names d.store d.registry before.step
  have left := (returns_unique _ e u _ () () performed other).2
  exact ⟨⟨report, v, locks, ran, left⟩, d.registry.mem_plan_order whole seeds,
    run_flat d before seeds⟩

-- A cell at the start of a chain, the end of which reads the others within a range, is edited
-- under a timeout.
theorem evaluations_never_nest_in_chain :
    let cell (row : Nat) : Key := ⟨⟨1⟩, ⟨row, 1⟩⟩
    let sheets : List SheetInfo := [⟨⟨1⟩, ⟨1⟩, "Main"⟩]
    let m : Memory := (⟨sheets, ∅, true⟩ : Memory).put (cell 3)
      (.formula ⟨"=SUM(A1:A2)", .text "stale", none, []⟩)
    let options : Options := ⟨some 5, .empty⟩
    let history : List (Request × (Nat → Nat)) :=
      [(.loadSheet ⟨1⟩, id), (.edit (.typed (cell 2) "=Main!A1"), fun n => 4 * n)]
    let request : Request := .edit (.typed (cell 1) "=B1")
    let e := { Request.attemptAll (Engine.ofStore m options id) history with clock := id }
    m.available = true ∧ m.Readable options.names ∧
      (∀ timed ∈ history, timed.1.Ascii options.names) ∧ request.Ascii options.names ∧
      ∃ u, request.perform.Returns e () u ∧ (∃ d, request.Starts e d) ∧
        ∀ d, request.Starts e d →
          let seeds := request.seeds d.registry
          (∃ report v locks, (Engine.run seeds).Returns d report v ∧ u = { v with locks }) ∧
            (∀ k, k ∈ (d.registry.plan seeds).order ↔ k ∈ d.registry.graph.closure seeds ∨
              k ∈ seeds ∧ d.registry.graph.isFormula k = true) ∧ d.RunsFlat seeds := by
  intro cell sheets m options history request e
  have stored : m.Readable options.names := readable_of_list m _ (by decide +kernel)
  have typed : request.Ascii options.names := by decide +kernel
  have readable : ∀ timed ∈ history, timed.1.Ascii options.names := by decide +kernel
  obtain ⟨u, performed, starts, flat⟩ :=
    evaluations_never_nest m rfl options id stored history readable request typed id
  have runs (sheet : SheetId) : request ≠ .loadSheet sheet := fun same => nomatch same
  exact ⟨rfl, stored, readable, typed, u, performed, starts runs, flat⟩

end Spreadsheet
