import Spreadsheet.Engine.Context
import Spreadsheet.Engine.Locks
import Spreadsheet.Engine.Registry

-- The recalculation engine. An edit writes one cell and evaluates exactly the formulas that
-- depend on it, each after those that it reads; a batch does the same without writing.

set_option autoImplicit false

namespace Spreadsheet

open Formula

structure Engine (σ : Type) where
  store : σ
  options : Options
  registry : Registry
  locks : Locks
  -- How many milliseconds a request has run when it comes to its cell number `n`.
  clock : Nat → Nat

-- Content for a cell that has been read and bound, but not written.
inductive Staged where
  | literal (v : Value)
  | formula (formula : Compiled) (references : List SheetRange)

namespace Staged

def references : Staged → List SheetRange
  | literal _ => []
  | formula _ references => references

end Staged

namespace Engine

variable {σ : Type}

def ofStore (store : σ) (options : Options) (clock : Nat → Nat) : Engine σ :=
  { store, options, registry := .empty, locks := .none, clock }

def formulaCount (e : Engine σ) : Nat := e.registry.graph.formulaCount

def inspect (e : Engine σ) (k : Key) : Inspection := e.registry.inspect k

def compile (e : Engine σ) (source : String) : Compiled := .ofSource e.options.names source

def expired (e : Engine σ) (n : Nat) : Bool :=
  match e.options.timeout? with
  | none => false
  | some limit => limit ≤ e.clock n

def calling {α : Type} (act : Attempt σ α) : Attempt (Engine σ) α :=
  act.within Engine.store fun store e => { e with store }

def modifyRegistry (f : Registry → Registry) : Attempt (Engine σ) Unit :=
  modify fun e => { e with registry := f e.registry }

-- Runs with sheets locked and unlocks them afterwards, also after a failure.
def holding {α : Type} (sheets : SheetSet) (act : Attempt (Engine σ) α) : Attempt (Engine σ) α :=
  ExceptT.mk fun e =>
    let (guard, locks) := e.locks.acquire sheets
    let (result, e) := act.run.run { e with locks }
    (result, { e with locks := e.locks.release guard })

theorem covers_union (needed sheets : SheetSet) :
    (Guard.mk (sheets.union needed)).covers needed = true := by
  have inserted : ∀ (list : List SheetId) (s : SheetSet) (x : SheetId),
      x ∈ list ∨ x ∈ s → x ∈ list.foldl (·.insert ·) s := by
    intro list
    induction list with
    | nil => simp
    | cons y rest ih =>
      intro s x member
      refine ih _ _ ?_
      grind
  simp only [Guard.covers, SheetSet.union, List.all_eq_true]
  intro x member
  exact decide_eq_true (inserted _ _ _ (.inl member))

-- The sets of sheets that a request locks, one after the other, until one covers what it needs.
-- The last set stays locked while the request runs.
def acquisitions (needed sheets : SheetSet) : List SheetSet :=
  if _h : (Guard.mk sheets).covers needed then [sheets]
  else sheets :: acquisitions needed (sheets.union needed)
termination_by if (Guard.mk sheets).covers needed then 0 else 1
decreasing_by simp [covers_union, _h]

-- The sheets locked for a request that knows, before it looks at the formulas, of `sheets`.
def lockClosure (e : Engine σ) (seeds : List Key) (sheets : SheetSet) : SheetSet :=
  (acquisitions (e.registry.touchedSheets seeds) sheets).getLastD sheets

variable [CellStore σ]

-- References on their sheets, without those to sheets that do not exist. The workbook of the
-- formula is asked for once, when a first sheet name needs it.
def bindFrom (home : SheetId) (workbook? : Option (Option WorkbookId)) :
    List Reference → Attempt σ (List SheetRange)
  | [] => return []
  | r :: rest =>
    match r.sheet? with
    | none => do return r.on home :: (← bindFrom home workbook? rest)
    | some name => do
      let workbook ← match workbook? with
        | some known => pure known
        | none => pure ((← CellStore.sheet home).map SheetInfo.workbook)
      let sheet? ← match workbook with
        | some workbook => CellStore.sheetNamed workbook name
        | none => pure none
      let bound ← bindFrom home (some workbook) rest
      match sheet? with
      | some sheet => return r.on sheet :: bound
      | none => return bound

def bindReferences (home : SheetId) (formula : Compiled) : Attempt (Engine σ) (List SheetRange) :=
  calling (bindFrom home none formula.references)

def stage (k : Key) : Input → Attempt (Engine σ) Staged
  | .value v => return .literal v
  | .formula source => do
    let formula := (← get).compile source
    return .formula formula (← bindReferences k.sheet formula)

-- Writes the cell, and once that has succeeded brings the registry in line with it.
def commit (k : Key) : Staged → Attempt (Engine σ) Unit
  | .literal v => do
    calling (CellStore.putValue k v)
    modifyRegistry (·.remove k)
  | .formula formula references => do
    calling (CellStore.putFormula k
      ((FormulaCell.uncomputed formula.source).withReferences references))
    modifyRegistry (·.insert k formula references)

-- Evaluates the cells in order and writes each result, from cell number `n` on.
def runFrom (e : Engine σ) (n : Nat) : List Key → Attempt (Context σ) Report
  | [] => return ⟨[], [], false⟩
  | k :: rest => do
    if e.expired n then return ⟨[], k :: rest, true⟩
    let value ← Context.evaluate k
    match (← get).formulas[k]? with
    | none => runFrom e (n + 1) rest
    | some formula =>
      Context.calling (CellStore.putFormula k
        (((FormulaCell.uncomputed formula.source).withResult value).withReferences
          (e.registry.graph.precedentsOf k)))
      let report ← runFrom e (n + 1) rest
      return { report with outcomes := .of k value :: report.outcomes }

def run (seeds : List Key) : Attempt (Engine σ) Report :=
  ExceptT.mk fun e =>
    let plan := e.registry.plan seeds
    let context := (Context.ofFormulas e.store plan.formulas).markCyclic plan.cyclic.toList
    let (result, context) := (runFrom e 0 plan.order).run.run context
    (result, { e with store := context.store })

def applyEdit (k : Key) (input : Input) : Attempt (Engine σ) Report := do
  let staged ← stage k input
  let sheets : SheetSet := .ofList (k.sheet :: staged.references.map SheetRange.sheet)
  holding ((← get).lockClosure [k] sheets) do
    commit k staged
    run [k]

def setCell (k : Key) (text : String) : Attempt (Engine σ) Report := applyEdit k (.ofTyped text)

-- Recalculates several cells of a sheet, where they are formulas, and what depends on them.
def recalculate (sheet : SheetId) (addresses : List Address) : Attempt (Engine σ) Report := do
  let seeds := addresses.map fun a => (⟨sheet, a⟩ : Key)
  holding ((← get).lockClosure seeds (.ofList (seeds.map Key.sheet))) (run seeds)

def stageRecords : List Record → Attempt (Engine σ) (List (Key × Compiled × List SheetRange))
  | [] => return []
  | r :: rest =>
    match r.cell.source? with
    | none => stageRecords rest
    | some source => do
      let formula := (← get).compile source
      let references ← bindReferences r.key.sheet formula
      return (r.key, formula, references) :: (← stageRecords rest)

-- Registers every formula stored on a sheet and forgets the others of that sheet.
def loadSheet (sheet : SheetId) : Attempt (Engine σ) Nat := do
  let staged ← stageRecords (← calling (CellStore.formulaCells sheet))
  let sheets := staged.flatMap fun (_, _, references) => references.map SheetRange.sheet
  holding (.ofList (sheet :: sheets)) do
    modifyRegistry fun r =>
      let stale := (r.graph.formulasOn sheet).filter fun k => !staged.any (·.1 = k)
      let r := stale.foldl Registry.remove r
      staged.foldl (fun r (k, formula, references) => r.insert k formula references) r
    return staged.length

def recalculateSheet (sheet : SheetId) : Attempt (Engine σ) Report := do
  discard (loadSheet sheet)
  let formulas := (← get).registry.graph.formulasOn sheet
  recalculate sheet (formulas.map Key.addr)

end Engine

end Spreadsheet
