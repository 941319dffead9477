import Spreadsheet.Proofs.Engine.LockedSheets

-- Requests that may run out of time. Over a memory that is switched on every request returns, and
-- the registered formulas stay stored and bound, whether the results are up to date or not.

set_option autoImplicit false

namespace Spreadsheet

open Formula

structure Bound (e : Engine Memory) : Prop where
  available : e.store.available = true
  step : InStep e.options.names e.store e.registry
  ascii : ∀ k source, e.store.inputAt k = some (.formula source) →
    (e.compile source).AsciiSheets

-- The stored formulas name their sheets in ASCII, if they name any.
def Memory.Readable (m : Memory) (names : Names) : Prop :=
  ∀ (k : Key) (f : FormulaCell), m.cells[k]? = some (.formula f) →
    (Compiled.ofSource names f.source).AsciiSheets

theorem readable_of_list (m : Memory) (names : Names)
    (each : ∀ entry ∈ m.cells.toList, ∀ source ∈ entry.2.source?,
      (Compiled.ofSource names source).AsciiSheets) : m.Readable names :=
  fun k f found => each (k, .formula f)
    (Std.ExtTreeMap.mem_toList_iff_getElem?_eq_some.mpr found) f.source rfl

theorem bound_new (m : Memory) (available : m.available = true) (options : Options)
    (clock : Nat → Nat) (readable : m.Readable options.names) :
    Bound (Engine.ofStore m options clock) := by
  refine ⟨available, empty_in_step options.names m, fun k source input => ?_⟩
  obtain ⟨f, found, rfl⟩ := (input_formula m k source).mp input
  exact readable k f found

theorem bound_locks (e : Engine Memory) (locks : Locks) (bound : Bound e) :
    Bound { e with locks } := ⟨bound.available, bound.step, bound.ascii⟩

theorem bound_clock (e : Engine Memory) (clock : Nat → Nat) (bound : Bound e) :
    Bound { e with clock } := ⟨bound.available, bound.step, bound.ascii⟩

theorem commits_bound (e u : Engine Memory) (bound : Bound e) (k : Key) (input : Input)
    (ascii : input.Ascii e.options.names) (commits : Commits e k input u) : Bound u := by
  have step := commits.step
  rw [← commits.options] at step
  refine ⟨commits.edited.available ▸ bound.available, step, fun p source found => ?_⟩
  rw [Engine.compile, commits.options]
  by_cases here : p = k
  · subst here
    rw [commits.holds] at found
    cases input with
    | value v => grind [Input.kept]
    | formula text =>
      obtain rfl : text = source := by simpa [Input.kept] using found
      exact ascii
  · rw [edited_input k e.store u.store commits.edited p here] at found
    exact bound.ascii p source found

theorem refreshed_bound (e u : Engine Memory) (bound : Bound e)
    (available : u.store.available = true) (step : InStep u.options.names u.store u.registry)
    (refreshed : Refreshed e u) : Bound u := by
  refine ⟨available, step, fun k source found => ?_⟩
  rw [refreshed.inputs k] at found
  rw [Engine.compile, refreshed.options]
  exact bound.ascii k source found

theorem run_midway (e : Engine Memory) (available : e.store.available = true)
    (step : InStep e.options.names e.store e.registry) (seeds before rest : List Key)
    (split : (e.registry.plan seeds).order = before ++ rest) :
    ∃ report d, (e.runFrom 0 before).Returns (e.started seeds) report d ∧
      Midway e.options.names e.registry e.store seeds (report.notEvaluated ++ rest) d ∧
      (report.timedOut = false → report.notEvaluated = []) ∧
      (e.options.timeout? = none → report.timedOut = false) := by
  have begun := midway_begin e.options.names e.registry e.store step seeds _
    (Graph.lists_reads_within e.registry.graph step.linked (e.registry.affected seeds))
  exact run_from_settles e.options.names e.registry e.store step e available seeds before rest 0 _
    (by rw [← split]; exact begun)

theorem run_bound (e : Engine Memory) (bound : Bound e) (seeds : List Key) :
    ∃ report u, (Engine.run seeds).Returns e report u ∧ Bound u ∧ u.options = e.options := by
  obtain ⟨report, d, ran, midway, _⟩ := run_midway e bound.available bound.step seeds
    (e.registry.plan seeds).order [] (List.append_nil _).symm
  have recomputed := midway.progress.recomputed
  have step := in_step_congr _ e.store e.registry d.store recomputed.sheets recomputed.inputs
    bound.step
  refine ⟨report, _, Engine.run_returns e seeds report d ran, ?_, rfl⟩
  exact refreshed_bound e _ bound (recomputed.available ▸ bound.available) step
    ⟨rfl, recomputed.sheets.symm, recomputed.inputs⟩

theorem load_bound (e : Engine Memory) (bound : Bound e) (sheet : SheetId) :
    ∃ count u, (Engine.loadSheet sheet).Returns e count u ∧ Bound u ∧ u.options = e.options := by
  obtain ⟨count, u, loaded, step, store, options, _⟩ := Engine.load_sheet_in_step e
    bound.available bound.step sheet fun k source input _ => bound.ascii k source input
  rw [← store, ← options] at step
  refine ⟨count, u, loaded, ?_, options⟩
  exact refreshed_bound e u bound (store ▸ bound.available) step
    ⟨options, by rw [store], fun k => by rw [store]⟩

-- The engine with the sheets locked that a request from these seeds locks.
def Engine.locking {σ : Type} (e : Engine σ) (seeds : List Key) (sheets : SheetSet) : Engine σ :=
  { e with locks := (e.locks.acquire (e.lockClosure seeds sheets)).2 }

-- The same for a request that knows only of the sheets of its seeds.
def Engine.lockingSeeds {σ : Type} (e : Engine σ) (seeds : List Key) : Engine σ :=
  e.locking seeds (.ofList (seeds.map Key.sheet))

-- The engine that the run of a request starts from: an edit has written its cell by then, and a
-- recalculation of a sheet has loaded it.
inductive Request.Starts {σ : Type} [CellStore σ] (e : Engine σ) : Request → Engine σ → Prop
  | edit (change : Edit) (content : Staged) (d u : Engine σ)
      (staged : (Engine.stage change.key change.input).Returns e content d)
      (committed : (Engine.commit change.key content).Returns
        (d.locking [change.key] (content.sheets change.key)) () u) :
      Starts e (.edit change) u
  | recalculate (sheet : SheetId) (addresses : List Address) :
      Starts e (.recalculate sheet addresses) (e.lockingSeeds (addresses.map (⟨sheet, ·⟩)))
  | recalculateSheet (sheet : SheetId) (count : Nat) (d : Engine σ)
      (loaded : (Engine.loadSheet sheet).Returns e count d) :
      Starts e (.recalculateSheet sheet) (d.lockingSeeds (d.registry.graph.formulasOn sheet))

theorem formulas_on_addresses (g : Graph) (sheet : SheetId) :
    ((g.formulasOn sheet).map Key.addr).map (⟨sheet, ·⟩) = g.formulasOn sheet := by
  simp [Graph.formulasOn]

section Starts

variable {σ : Type} [CellStore σ] (e : Engine σ)

theorem recalculate_returns (sheet : SheetId) (addresses : List Address) (report : Report)
    (u : Engine σ)
    (ran : (Engine.run (addresses.map (⟨sheet, ·⟩))).Returns
      (e.lockingSeeds (addresses.map (⟨sheet, ·⟩))) report u) :
    ∃ locks, (Engine.recalculate sheet addresses).Returns e report { u with locks } := by
  exact ⟨_, returns_bind _ _ e e _ e _ (returns_get e) (Engine.holding_returns _ _ e u report ran)⟩

-- A request is its start and the run from there.
theorem starts_perform (request : Request) (d : Engine σ) (starts : request.Starts e d)
    (report : Report) (u : Engine σ)
    (ran : (Engine.run (request.seeds d.registry)).Returns d report u) :
    ∃ locks, request.perform.Returns e () { u with locks } := by
  cases starts with
  | edit change content c d staged committed =>
    let guard := c.lockClosure [change.key] (content.sheets change.key)
    let locks := u.locks.release ⟨guard⟩
    have edited : (Engine.applyEdit change.key change.input).Returns e report { u with locks } := by
      refine returns_bind _ _ e c _ _ _ staged ?_
      refine returns_bind _ _ c c _ c _ (returns_get c) ?_
      refine Engine.holding_returns guard _ c u report ?_
      exact returns_bind _ _ _ d u () report committed ran
    refine ⟨locks, ?_⟩
    cases change with
    | typed k text => exact returns_map _ _ e _ report edited
    | given k input => exact returns_map _ _ e _ report edited
  | recalculate sheet addresses =>
    obtain ⟨locks, returned⟩ := recalculate_returns e sheet addresses report u ran
    exact ⟨locks, returns_map _ _ e _ report returned⟩
  | recalculateSheet sheet count d loaded =>
    have home := formulas_on_addresses d.registry.graph sheet
    obtain ⟨locks, returned⟩ := recalculate_returns d sheet
      ((d.registry.graph.formulasOn sheet).map Key.addr) report u (by rw [home]; exact ran)
    refine ⟨locks, returns_map _ _ e _ report ?_⟩
    refine returns_bind _ _ e d _ () report (returns_map _ _ e d count loaded) ?_
    exact returns_bind _ _ d d _ d report (returns_get d) returned

end Starts

section Requests

variable (e : Engine Memory) (bound : Bound e) (request : Request)
  (ascii : request.Ascii e.options.names)
include bound

-- All requests but the loading of a sheet come to a run.
theorem starts_exist (runs : ∀ sheet, request ≠ .loadSheet sheet) : ∃ d, request.Starts e d := by
  cases request with
  | edit change =>
    let content := e.staged change.key change.input
    let locked := e.locking [change.key] (content.sheets change.key)
    have staged := Engine.stage_returns e bound.available change.key change.input
    have committed := Engine.commit_returns locked bound.available change.key content
    exact ⟨_, .edit change content e _ staged committed⟩
  | recalculate sheet addresses => exact ⟨_, .recalculate sheet addresses⟩
  | recalculateSheet sheet =>
    obtain ⟨count, d, loaded, _⟩ := load_bound e bound sheet
    exact ⟨_, .recalculateSheet sheet count d loaded⟩
  | loadSheet sheet => exact absurd rfl (runs sheet)

include ascii

theorem starts_bound (d : Engine Memory) (starts : request.Starts e d) :
    Bound d ∧ d.options = e.options := by
  cases starts with
  | edit change content c d staged committed =>
    obtain ⟨rfl, rfl⟩ := returns_unique _ e c e content _ staged
      (Engine.stage_returns e bound.available change.key change.input)
    let locked := c.locking [change.key]
      ((c.staged change.key change.input).sheets change.key)
    have held : Bound locked := bound_locks c _ bound
    obtain ⟨_, rfl⟩ := returns_unique _ locked d _ () () committed
      (Engine.commit_returns locked held.available change.key _)
    have commits : Commits locked change.key change.input _ :=
      committed_commits locked held.step change.key change.input ascii
    exact ⟨commits_bound locked _ held change.key change.input ascii commits, commits.options⟩
  | recalculate sheet addresses => exact ⟨bound_locks e _ bound, rfl⟩
  | recalculateSheet sheet count d loaded =>
    obtain ⟨number, u, returned, after, options⟩ := load_bound e bound sheet
    obtain ⟨_, rfl⟩ := returns_unique _ e d u count number loaded returned
    exact ⟨bound_locks d _ after, options⟩

theorem request_bound :
    ∃ u, request.perform.Returns e () u ∧ Bound u ∧ u.options = e.options := by
  by_cases loads : ∃ sheet, request = .loadSheet sheet
  · obtain ⟨sheet, rfl⟩ := loads
    obtain ⟨count, u, loaded, after, options⟩ := load_bound e bound sheet
    exact ⟨u, returns_map _ _ e u count loaded, after, options⟩
  · obtain ⟨d, starts⟩ := starts_exist e bound request fun sheet same => loads ⟨sheet, same⟩
    obtain ⟨before, same⟩ := starts_bound e bound request ascii d starts
    obtain ⟨report, u, ran, after, options⟩ := run_bound d before (request.seeds d.registry)
    obtain ⟨locks, performed⟩ := starts_perform e request d starts report u ran
    exact ⟨_, performed, bound_locks u locks after, options.trans same⟩

end Requests

theorem attempts_bound (e : Engine Memory) (bound : Bound e)
    (history : List (Request × (Nat → Nat)))
    (ascii : ∀ timed ∈ history, timed.1.Ascii e.options.names) :
    Bound (Request.attemptAll e history) ∧
      (Request.attemptAll e history).options = e.options := by
  induction history generalizing e with
  | nil => exact ⟨bound, rfl⟩
  | cons timed rest ih =>
    obtain ⟨u, performed, after, options⟩ := request_bound { e with clock := timed.2 }
      (bound_clock e timed.2 bound) timed.1 (ascii timed List.mem_cons_self)
    have left : Request.attempt e timed = u := congrArg Prod.snd performed
    have later := ih (Request.attempt e timed) (left ▸ after) fun other member => by
      rw [left, options]
      exact ascii other (List.mem_cons_of_mem timed member)
    exact ⟨later.1, later.2.trans (left ▸ options)⟩

end Spreadsheet
