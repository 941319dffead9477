import Spreadsheet.Formula.Evaluation
import Spreadsheet.Formula.ParseError
import Spreadsheet.Formula.Path
import Spreadsheet.Store.Basic

-- Evaluation in steps, by somebody who answers for cells, ranges and sheets, may keep a state and
-- may fail. A step may fail as well, or go on after a failure.

set_option autoImplicit false

namespace Spreadsheet.Formula

-- What parsing and evaluation may fail with.
inductive FormulaError where
  | parse (reason : ParseError)
  | store (error : StoreError)

-- A computation on a state that may fail in either way; the state outlives the failure.
abbrev Evaluation (τ α : Type) : Type := ExceptT FormulaError (StateM τ) α

structure Evaluator (τ : Type) where
  ask : Path → (q : Query) → Evaluation τ q.Answer
  -- The sheet of references without a sheet name.
  home : SheetId
  -- The cells under evaluation, which every question is put with.
  path : Path

-- An argument that has not been evaluated, and the ways to evaluate it: to one value, to a value
-- or a range, to a range alone.
structure Unevaluated (τ : Type) where
  value : Evaluation τ Value
  operand : Evaluation τ Operand
  table : Evaluation τ (Except ErrorKind RangeValues)

namespace Evaluation

variable {τ : Type}

def sumFrom (total : Float) : List (Unevaluated τ) → Evaluation τ Value
  | [] => return .ofFloat total
  | arg :: rest => do
    match ← arg.operand with
    | .range values => sumFrom (total + (Function.numbers values).foldl (· + ·) 0.0) rest
    | .scalar v =>
      match v.asNumber? with
      | some n => sumFrom (total + n) rest
      | none => sumFrom total rest
    | .unresolved => return .error .ref

def concatenateFrom (text : String) : List (Unevaluated τ) → Evaluation τ Value
  | [] => return .text text
  | arg :: rest => do
    match ← arg.operand with
    | .unresolved => return .error .ref
    | .scalar v =>
      match Function.joinFrom text [v] with
      | .error e => return .error e
      | .ok text => concatenateFrom text rest
    | .range values =>
      match Function.joinFrom text (values.toList.map Prod.snd) with
      | .error e => return .error e
      | .ok text => concatenateFrom text rest

def choose (condition yes : Unevaluated τ) (no? : Option (Unevaluated τ)) :
    Evaluation τ Value := do
  let condition ← condition.value
  if condition.isError then return condition
  else if condition.truthy then yes.value
  else match no? with
    | some no => no.value
    | none => return .boolean false

def orElse (value fallback : Unevaluated τ) : Evaluation τ Value := do
  let value ← value.value
  if value.isError then fallback.value else return value

def vlookup (sought table column : Unevaluated τ) (mode? : Option (Unevaluated τ)) :
    Evaluation τ Value := do
  let sought ← sought.value
  match ← table.table with
  | .error e => return .error e
  | .ok table =>
    match columnIndex table (← column.value) with
    | .error e => return .error e
    | .ok column =>
      let keys := table.column table.range.first.col
      match mode? with
      | none => return pick table column (approximate sought .gt keys)
      | some mode =>
        let mode ← mode.value
        match mode.error? with
        | some e => return .error e
        | none =>
          if asksExact mode then return pick table column (exact sought keys)
          else return pick table column (approximate sought .gt keys)

def matchPosition (sought range : Unevaluated τ) (type? : Option (Unevaluated τ)) :
    Evaluation τ Value := do
  let sought ← sought.value
  match ← range.table with
  | .error e => return .error e
  | .ok values =>
    let type ← match type? with
      | none => pure (.ok 1.0)
      | some type => Value.toNumber <$> type.value
    match type with
    | .error e => return .error e
    | .ok type =>
      match (search sought type values.toList).bind values.position? with
      | none => return .error .notAvailable
      | some n => return .number (Float.ofNat n)

def wrongCount : Evaluation τ Value := return .error .value

-- The functions, each with what it does with its arguments.
def functions : List (Function × (List (Unevaluated τ) → Evaluation τ Value)) :=
  [(.concat, concatenateFrom ""),
    (.concatenate, concatenateFrom ""),
    (.ifThen, fun
      | [condition, yes] => choose condition yes none
      | [condition, yes, no] => choose condition yes (some no)
      | _ => wrongCount),
    (.ifError, fun
      | [value, fallback] => orElse value fallback
      | _ => wrongCount),
    (.matchFirst, fun
      | [sought, range] => matchPosition sought range none
      | [sought, range, type] => matchPosition sought range (some type)
      | _ => wrongCount),
    (.sum, sumFrom 0.0),
    (.verticalLookup, fun
      | [sought, table, column] => vlookup sought table column none
      | [sought, table, column, mode] => vlookup sought table column (some mode)
      | _ => wrongCount)]

def call (name : String) (args : List (Unevaluated τ)) : Evaluation τ Value :=
  match functions.find? fun entry => entry.1.name == Text.upper name with
  | none => return .error .formulaSyntax
  | some (f, act) => if f.accepts args.length then act args else wrongCount

end Evaluation

namespace Evaluator

variable {τ : Type} (ev : Evaluator τ)

def query (q : Query) : Evaluation τ q.Answer := ev.ask ev.path q

def sheetOf : Option String → Evaluation τ (Option SheetId)
  | none => return some ev.home
  | some name => ev.query (.sheet ev.home name)

def value (r : Reference) : Evaluation τ Value := do
  match ← ev.sheetOf r.sheet? with
  | none => return .error .ref
  | some sheet =>
    match r.target with
    | .cell a => ev.query (.cell ⟨sheet, a⟩)
    | .range range =>
      if range.isSingle then ev.query (.cell ⟨sheet, range.first⟩) else return .error .value

def operand (r : Reference) : Evaluation τ Operand := do
  match ← ev.sheetOf r.sheet? with
  | none => return .unresolved
  | some sheet =>
    match r.target with
    | .cell a => return .scalar (← ev.query (.cell ⟨sheet, a⟩))
    | .range range => return .range (← ev.query (.range ⟨sheet, range⟩))

def table (r : Reference) : Evaluation τ (Except ErrorKind RangeValues) := do
  match ← ev.sheetOf r.sheet? with
  | none => return .error .ref
  | some sheet => return .ok (← ev.query (.range (r.on sheet)))

-- An argument with this value. Only references are more than their value.
def argument (e : Expr) (value : Evaluation τ Value) : Unevaluated τ :=
  match e with
  | .reference r => ⟨value, ev.operand r, ev.table r⟩
  | _ => ⟨value, return .scalar (← value), return .error ((← value).error?.getD .value)⟩

mutual

def evaluate : Expr → Evaluation τ Value
  | .number n => return .number n
  | .text s => return .text s
  | .boolean b => return .boolean b
  | .error e => return .error e
  | .reference r => ev.value r
  | .name _ => return .error .ref
  | .negate operand => do return negated (← evaluate operand)
  | .binary op left right => do
    let a ← evaluate left
    let b ← evaluate right
    return op.apply a b
  | .call function args => Evaluation.call function (arguments args)

def arguments : List Expr → List (Unevaluated τ)
  | [] => []
  | e :: rest => ev.argument e (evaluate e) :: arguments rest

end

end Evaluator

end Spreadsheet.Formula
