import Spreadsheet.Proofs.Engine.Run
import Spreadsheet.Proofs.Store.Deliveries

-- Edits over a memory that is switched on. Every step of an edit succeeds, so an edit comes down
-- to the new content of one cell and a run from there, and it leaves a consistent engine
-- consistent.

set_option autoImplicit false

namespace Spreadsheet

open Formula

structure Ready (e : Engine Memory) : Prop where
  available : e.store.available = true
  untimed : e.options.timeout? = none
  step : InStep e.options.names e.store e.registry

structure Informed (e : Engine Memory) : Prop extends Ready e where
  complete : Complete e.store e.registry

abbrev SettledIn (e : Engine Memory) (k : Key) : Prop :=
  Settled e.options.names e.registry.graph e.store k

structure Consistent (e : Engine Memory) : Prop extends Informed e where
  settled : ∀ k, SettledIn e k

def Input.Ascii (names : Names) : Input → Prop
  | .value _ => True
  | .formula source => (Compiled.ofSource names source).AsciiSheets

instance (names : Names) (input : Input) : Decidable (input.Ascii names) := by
  cases input <;> unfold Input.Ascii <;> infer_instance

-- What a cell holds once it has been given an input. An empty value clears it.
def Input.kept : Input → Option Input
  | .value v => if v.isEmpty then none else some (.value v)
  | .formula source => some (.formula source)

theorem Memory.input_write_value (m : Memory) (k : Key) (v : Value) :
    (m.writeValue k v).inputAt k = (Input.value v).kept := by
  simp only [writeValue, Input.kept]
  split
  · simp [inputAt, remove]
  · simp [input_put, Cell.input]

theorem bind_from_delivers {σ : Type} [CellStore σ] (m : Memory) (calm broken : σ → Prop)
    (supplies : Supplies m calm broken) (home : SheetId) (workbook? : Option (Option WorkbookId))
    (refs : List Reference)
    (known : ∀ w, workbook? = some w → w = (m.sheet home).map SheetInfo.workbook) :
    (Engine.bindFrom home workbook? refs).Delivers calm broken (m.bound home refs) := by
  induction refs generalizing workbook? with
  | nil => exact delivers_pure _ _ []
  | cons r rest ih =>
    cases named : r.sheet? with
    | none =>
      have first : m.bound home (r :: rest) = r.on home :: m.bound home rest := by
        simp [Memory.bound, Reference.boundBy, named]
      rw [first]
      simp only [Engine.bindFrom, named]
      exact delivers_bind _ _ _ _ _ _ (ih workbook? known) (delivers_pure _ _ _)
    | some name =>
      have first : m.bound home (r :: rest) =
          ((m.sheetFrom home name).map r.on).toList ++ m.bound home rest := by
        simp only [Memory.bound, List.filterMap_cons, Reference.boundBy, named, Memory.resolver,
          Memory.answer]
        cases m.sheetFrom home name <;> rfl
      have later := ih (some ((m.sheet home).map SheetInfo.workbook))
        fun w same => (Option.some.inj same).symm
      rw [first]
      simp only [Engine.bindFrom, named]
      -- Remembered or asked for, the workbook is that of the home sheet.
      cases workbook?
      case' some w =>
        obtain rfl := known w rfl
        refine delivers_bind _ _ _ _ _ _ (delivers_pure _ _ _) ?_
      case' none =>
        refine delivers_bind _ _ _ _ _ _ (supplies.sheet home) ?_
        refine delivers_bind _ _ _ _ _ _ (delivers_pure _ _ _) ?_
      all_goals
        cases here : m.sheet home with
        | none =>
          have absent : m.sheetFrom home name = none := by simp [Memory.sheetFrom, here]
          rw [absent]
          refine delivers_bind _ _ _ _ _ _ (delivers_pure _ _ none) ?_
          exact delivers_bind _ _ _ _ _ _ (here ▸ later) (delivers_pure _ _ _)
        | some info =>
          have found : m.sheetFrom home name = m.sheetNamed info.workbook name := by
            simp [Memory.sheetFrom, here]
          rw [found]
          refine delivers_bind _ _ _ _ _ _ (supplies.sheetNamed info.workbook name) ?_
          refine delivers_bind _ _ _ _ _ _ (here ▸ later) ?_
          cases m.sheetNamed info.workbook name with
          | none => exact delivers_pure _ _ _
          | some sheet => exact delivers_pure _ _ _

theorem bind_from_returns (m : Memory) (available : m.available = true) (home : SheetId)
    (workbook? : Option (Option WorkbookId)) (refs : List Reference)
    (known : ∀ w, workbook? = some w → w = (m.sheet home).map SheetInfo.workbook) :
    (Engine.bindFrom home workbook? refs).Returns m (m.bound home refs) m :=
  returns_of_delivers (· = m) (fun _ => False) _ m _ rfl (fun _ same => same)
    (fun _ impossible => impossible) (bind_from_delivers m _ _
      (m.supplies available) home workbook? refs known)

namespace Engine

theorem calling_returns {σ α : Type} (act : Attempt σ α) (e : Engine σ) (a : α) (s : σ)
    (inner : act.Returns e.store a s) : (calling act).Returns e a { e with store := s } :=
  returns_within _ _ act e a s inner

-- What is done under locks does not depend on them.
theorem holding_returns {σ α : Type} (sheets : SheetSet) (act : Attempt (Engine σ) α)
    (e u : Engine σ) (a : α)
    (ran : act.Returns { e with locks := (e.locks.acquire sheets).2 } a u) :
    (holding sheets act).Returns e a { u with locks := u.locks.release ⟨sheets⟩ } := by
  exact congrArg (fun outcome => (outcome.1,
    { outcome.2 with locks := outcome.2.locks.release ⟨sheets⟩ })) ran

def staged (e : Engine Memory) (k : Key) : Input → Staged
  | .value v => .literal v
  | .formula source =>
    .formula (e.compile source) (e.store.bound k.sheet (e.compile source).references)

def committed (e : Engine Memory) (k : Key) : Staged → Engine Memory
  | .literal v => { e with store := e.store.writeValue k v, registry := e.registry.remove k }
  | .formula c references =>
    { e with
      store := e.store.put k
        (.formula ((FormulaCell.uncomputed c.source).withReferences references))
      registry := e.registry.insert k c references }

section Steps

variable (e : Engine Memory) (available : e.store.available = true)
include available

theorem bind_references_returns (home : SheetId) (c : Compiled) :
    (bindReferences home c).Returns e (e.store.bound home c.references) e :=
  calling_returns _ e _ e.store
    (bind_from_returns e.store available home none c.references fun _ same => by cases same)

theorem stage_returns (k : Key) (input : Input) :
    (stage k input).Returns e (e.staged k input) e := by
  cases input with
  | value v => exact returns_pure e _
  | formula source =>
    refine returns_bind _ _ e e e e _ (returns_get e) ?_
    exact returns_bind _ _ e e e _ _ (bind_references_returns e available _ _) (returns_pure e _)

theorem commit_returns (k : Key) (content : Staged) :
    (commit k content).Returns e () (e.committed k content) := by
  cases content with
  | literal v =>
    have wrote := calling_returns _ e () _
      (Memory.writing_returns e.store available (·.writeValue k v))
    exact returns_bind _ _ e _ _ () () wrote (returns_modify _ _)
  | formula c references =>
    have wrote := calling_returns _ e () _ (Memory.writing_returns e.store available
      (·.put k (.formula ((FormulaCell.uncomputed c.source).withReferences references))))
    exact returns_bind _ _ e _ _ () () wrote (returns_modify _ _)

end Steps

end Engine

-- What the commitment of an input to the cell `k` does to an engine.
structure Commits (e : Engine Memory) (k : Key) (input : Input) (u : Engine Memory) : Prop where
  options : u.options = e.options
  edited : Edited k e.store u.store
  step : InStep e.options.names u.store u.registry
  holds : u.store.inputAt k = input.kept
  known : ∀ p, p ∈ u.registry.formulas ↔
    (p = k ∧ input.isFormula = true) ∨ (p ≠ k ∧ p ∈ e.registry.formulas)
  reads : ∀ f p, f ≠ k → u.registry.graph.reads f p = e.registry.graph.reads f p

theorem committed_commits (e : Engine Memory)
    (step : InStep e.options.names e.store e.registry) (k : Key) (input : Input)
    (ascii : input.Ascii e.options.names) :
    Commits e k input (e.committed k (e.staged k input)) := by
  cases input with
  | value v =>
    have edited := edited_write_value e.store k v
    refine ⟨rfl, edited, remove_in_step _ _ _ _ k edited step,
      e.store.input_write_value k v, fun p => ?_, fun f p => reads_remove e.registry k f p⟩
    simp only [Engine.committed, Engine.staged, Registry.remove, Input.isFormula,
      Std.ExtTreeMap.mem_erase, ne_eq, Std.LawfulEqCmp.compare_eq_iff_eq]
    grind
  | formula source =>
    let c := Compiled.ofSource e.options.names source
    let references := e.store.bound k.sheet c.references
    have edited := edited_put e.store k
      (.formula ((FormulaCell.uncomputed source).withReferences references))
    have input := (e.store.input_put k k
      (.formula ((FormulaCell.uncomputed source).withReferences references))).trans (if_pos rfl)
    refine ⟨rfl, edited, insert_in_step _ _ _ _ k edited step source input ascii, input,
      fun p => ?_, fun f p => reads_insert e.registry k c references f p⟩
    simp only [Engine.committed, Engine.staged, Registry.insert, Input.isFormula,
      Std.ExtTreeMap.mem_insert, Std.LawfulEqCmp.compare_eq_iff_eq]
    grind

theorem commits_ready (e u : Engine Memory) (ready : Ready e) (k : Key) (input : Input)
    (commits : Commits e k input u) : Ready u :=
  ⟨commits.edited.available ▸ ready.available, commits.options ▸ ready.untimed,
    commits.options ▸ commits.step⟩

theorem commits_complete (e u : Engine Memory) (k : Key) (input : Input)
    (commits : Commits e k input u) (complete : Complete e.store e.registry) :
    Complete u.store u.registry := by
  intro p source found
  refine (commits.known p).mpr ?_
  by_cases here : p = k
  · subst here
    rw [commits.holds] at found
    cases input with
    | value v => grind [Input.kept]
    | formula text => exact .inl ⟨rfl, rfl⟩
  · rw [edited_input k e.store u.store commits.edited p here] at found
    exact .inr ⟨here, complete p source found⟩

-- What an edit can unsettle depends on the edited cell.
theorem commits_settled (e u : Engine Memory) (consistent : Consistent e) (k : Key)
    (input : Input) (commits : Commits e k input u) (p : Key)
    (known : p ∈ u.registry.formulas) :
    p ∈ u.registry.affected [k] ∨ SettledIn u p := by
  have affected := mem_affected e.options.names u.store u.registry commits.step [k] p
  by_cases member : p ∈ u.registry.affected [k]
  · exact .inl member
  · have apart : p ≠ k := fun here =>
      member (affected.mpr (.inr ⟨List.mem_singleton.mpr here, known⟩))
    have free : ¬u.registry.graph.DependsOn p k := fun chain =>
      member (affected.mpr (.inl ⟨k, List.mem_singleton_self k, chain⟩))
    have before : p ∈ e.registry.formulas := by simpa [commits.known p, apart] using known
    rw [SettledIn, commits.options]
    exact .inr (edited_settled e.options.names e.store u.store e.registry k commits.edited
      consistent.step u.registry commits.reads p before apart free (consistent.settled p))

-- The same inputs on the same sheets, read under the same options.
structure Refreshed (e u : Engine Memory) : Prop where
  options : u.options = e.options
  sheets : u.store.sheets = e.store.sheets
  inputs : ∀ k, u.store.inputAt k = e.store.inputAt k

theorem ready_locks (e : Engine Memory) (locks : Locks) (ready : Ready e) :
    Ready { e with locks } := ⟨ready.available, ready.untimed, ready.step⟩

theorem consistent_locks (e : Engine Memory) (locks : Locks) (consistent : Consistent e) :
    Consistent { e with locks } :=
  ⟨⟨ready_locks e locks consistent.toReady, consistent.complete⟩, consistent.settled⟩

-- Only cells with known formulas can fail to be settled.
theorem settled_of_known (e : Engine Memory) (informed : Informed e) (k : Key)
    (settled : k ∈ e.registry.formulas → SettledIn e k) : SettledIn e k := by
  intro f found
  have input := (input_formula e.store k f.source).mpr ⟨f, found, rfl⟩
  exact settled (informed.complete k f.source input) f found

theorem complete_congr (e u : Engine Memory) (refreshed : Refreshed e u)
    (known : ∀ k, k ∈ u.registry.formulas ↔ k ∈ e.registry.formulas)
    (complete : Complete e.store e.registry) : Complete u.store u.registry := by
  intro k source found
  rw [refreshed.inputs k] at found
  exact (known k).mpr (complete k source found)

theorem run_ready (e : Engine Memory) (ready : Ready e) (seeds : List Key) :
    ∃ report u, (Engine.run seeds).Returns e report u ∧ Ready u ∧ Refreshed e u ∧
      u.registry = e.registry ∧ ∀ k ∈ e.registry.formulas,
        k ∈ e.registry.affected seeds ∨ SettledIn e k → SettledIn u k := by
  obtain ⟨report, m, ran, recomputed, settles⟩ :=
    run_settles e.options.names e ready.untimed ready.available ready.step seeds
  refine ⟨report, _, ran, ⟨recomputed.available ▸ ready.available, ready.untimed, ?_⟩,
    ⟨rfl, recomputed.sheets.symm, recomputed.inputs⟩, rfl, settles⟩
  exact in_step_congr _ e.store e.registry m recomputed.sheets recomputed.inputs ready.step

theorem apply_edit_consistent (e : Engine Memory) (consistent : Consistent e) (k : Key)
    (input : Input) (ascii : input.Ascii e.options.names) :
    ∃ report u, (Engine.applyEdit k input).Returns e report u ∧ Consistent u ∧
      u.options = e.options ∧ u.store.sheets = e.store.sheets ∧
      ∀ p, u.store.inputAt p = if p = k then input.kept else e.store.inputAt p := by
  let content := e.staged k input
  let sheets : SheetSet := .ofList (k.sheet :: content.references.map SheetRange.sheet)
  let locked : Engine Memory :=
    { e with locks := (e.locks.acquire (e.lockClosure [k] sheets)).2 }
  have held : Consistent locked := consistent_locks e _ consistent
  have commits : Commits locked k input (locked.committed k content) :=
    committed_commits locked held.step k input ascii
  have known := commits_settled locked _ held k input commits
  obtain ⟨report, u, ran, ready, refreshed, registry, settles⟩ :=
    run_ready _ (commits_ready locked _ held.toReady k input commits) [k]
  have informed : Informed u := ⟨ready, complete_congr _ u refreshed (by simp [registry])
    (commits_complete locked _ k input commits held.complete)⟩
  have after : Consistent u := ⟨informed, fun p => settled_of_known u informed p fun registered =>
    settles p (registry ▸ registered) (known p (registry ▸ registered))⟩
  refine ⟨report, { u with locks := u.locks.release ⟨e.lockClosure [k] sheets⟩ }, ?_,
    consistent_locks u _ after, refreshed.options.trans commits.options,
    refreshed.sheets.trans commits.edited.sheets.symm, fun p => (refreshed.inputs p).trans ?_⟩
  · refine returns_bind _ _ e e _ _ _ (Engine.stage_returns e consistent.available k input) ?_
    refine returns_bind _ _ e e _ e _ (returns_get e) ?_
    refine Engine.holding_returns (e.lockClosure [k] sheets) _ e u report ?_
    exact returns_bind _ _ locked _ u () report
      (Engine.commit_returns locked held.available k content) ran
  · by_cases here : p = k
    · rw [if_pos here, here, commits.holds]
    · rw [if_neg here]
      exact edited_input k locked.store _ commits.edited p here

end Spreadsheet
