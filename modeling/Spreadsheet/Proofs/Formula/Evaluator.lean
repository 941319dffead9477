import Spreadsheet.Formula.Evaluator
import Spreadsheet.Proofs.Formula.Arguments

-- The evaluator puts the questions of the reading of an expression, one after the other, and does
-- nothing else. Nothing in the types keeps a step from failing by itself, or from going on after
-- a question that was not answered; that none does is seen function by function, and from there,
-- by induction, for every expression.

set_option autoImplicit false

namespace Spreadsheet.Formula

section Run

variable {τ α β : Type} (answer : (q : Query) → Evaluation τ q.Answer)

theorem run_bind (t : Reading α) (f : α → Reading β) :
    (t >>= f).run answer = t.run answer >>= fun a => (f a).run answer := by
  induction t with
  | done a => exact (pure_bind a fun a => (f a).run answer).symm
  | ask q next ih =>
    have later : (fun reply => (next reply >>= f).run answer) =
        fun reply => (next reply).run answer >>= fun a => (f a).run answer := funext ih
    exact (congrArg (answer q >>= ·) later).trans (bind_assoc (answer q) _ _).symm

theorem run_pure (a : α) : (pure a : Reading α).run answer = pure a := rfl

theorem run_map (f : α → β) (t : Reading α) :
    (f <$> t).run answer = f <$> t.run answer := by
  have whole := run_bind answer t fun a => .done (f a)
  exact whole.trans (map_eq_pure_bind f (t.run answer)).symm

theorem run_query (q : Query) : (Reading.query q).run answer = answer q :=
  bind_pure (answer q)

-- The ways to evaluate an argument, with its questions put to `answer`.
def Argument.unevaluated (arg : Argument) : Unevaluated τ :=
  ⟨arg.value.run answer, arg.operand.run answer, arg.table.run answer⟩

theorem sum_from_runs (total : Float) (args : List Argument) :
    Evaluation.sumFrom total (args.map (·.unevaluated answer)) =
      (Function.sumFrom total args).run answer := by
  induction args generalizing total with
  | nil => rfl
  | cons arg rest ih =>
    simp only [List.map_cons, Evaluation.sumFrom, Function.sumFrom, run_bind]
    apply bind_congr
    intro operand
    cases operand with
    | range values => exact ih _
    | unresolved => rfl
    | scalar v =>
      dsimp only
      cases v.asNumber? with
      | some n => exact ih _
      | none => exact ih _

theorem concatenate_from_runs (text : String) (args : List Argument) :
    Evaluation.concatenateFrom text (args.map (·.unevaluated answer)) =
      (Function.concatenateFrom text args).run answer := by
  induction args generalizing text with
  | nil => rfl
  | cons arg rest ih =>
    simp only [List.map_cons, Evaluation.concatenateFrom, Function.concatenateFrom,
      run_bind]
    apply bind_congr
    intro operand
    cases operand with
    | unresolved => rfl
    | scalar v =>
      dsimp only
      cases Function.joinFrom text [v] with
      | error e => rfl
      | ok text => exact ih text
    | range values =>
      dsimp only
      cases Function.joinFrom text (values.toList.map Prod.snd) with
      | error e => rfl
      | ok text => exact ih text

theorem choose_runs (condition yes : Argument) (no? : Option Argument) :
    Evaluation.choose (condition.unevaluated answer) (yes.unevaluated answer)
        (no?.map (·.unevaluated answer)) = (Function.choose condition yes no?).run answer := by
  simp only [Evaluation.choose, Function.choose, run_bind]
  apply bind_congr
  intro v
  cases v.isError with
  | true => rfl
  | false =>
    cases v.truthy with
    | true => rfl
    | false =>
      cases no? with
      | none => rfl
      | some no => rfl

theorem or_else_runs (value fallback : Argument) :
    Evaluation.orElse (value.unevaluated answer) (fallback.unevaluated answer) =
      (Function.orElse value fallback).run answer := by
  simp only [Evaluation.orElse, Function.orElse, run_bind]
  apply bind_congr
  intro v
  cases v.isError with
  | true => rfl
  | false => rfl

theorem vlookup_runs (sought table column : Argument) (mode? : Option Argument) :
    Evaluation.vlookup (sought.unevaluated answer) (table.unevaluated answer)
        (column.unevaluated answer) (mode?.map (·.unevaluated answer)) =
      (vlookup sought table column mode?).run answer := by
  simp only [Evaluation.vlookup, vlookup, run_bind]
  apply bind_congr
  intro v
  apply bind_congr
  intro found
  cases found with
  | error e => rfl
  | ok values =>
    simp only [run_bind]
    apply bind_congr
    intro number
    cases columnIndex values number with
    | error e => rfl
    | ok n =>
      cases mode? with
      | none => rfl
      | some mode =>
        simp only [Option.map_some, run_bind]
        apply bind_congr
        intro m
        cases m.error? with
        | some e => rfl
        | none =>
          dsimp only
          cases asksExact m with
          | true => rfl
          | false => rfl

theorem match_position_runs (sought range : Argument) (type? : Option Argument) :
    Evaluation.matchPosition (sought.unevaluated answer) (range.unevaluated answer)
        (type?.map (·.unevaluated answer)) =
      (matchPosition sought range type?).run answer := by
  simp only [Evaluation.matchPosition, matchPosition, run_bind]
  apply bind_congr
  intro v
  apply bind_congr
  intro found
  cases found with
  | error e => rfl
  | ok values =>
    cases type? with
    | none =>
      simp only [Option.map_none, run_bind, run_pure, pure_bind]
      cases (search v 1.0 values.toList).bind values.position? with
      | none => rfl
      | some place => rfl
    | some type =>
      simp only [Option.map_some, run_bind, run_map]
      apply bind_congr
      intro n
      cases n with
      | error e => rfl
      | ok n =>
        dsimp only
        cases (search v n values.toList).bind values.position? with
        | none => rfl
        | some place => rfl

-- Every function, whatever it is given.
theorem functions_run (f : Function) (act : List (Unevaluated τ) → Evaluation τ Value)
    (listed : (f, act) ∈ Evaluation.functions) (args : List Argument) :
    act (args.map (·.unevaluated answer)) = (f.apply args).run answer := by
  simp only [Evaluation.functions, List.mem_cons, List.not_mem_nil, or_false, Prod.mk.injEq]
    at listed
  rcases listed with ⟨rfl, rfl⟩ | ⟨rfl, rfl⟩ | ⟨rfl, rfl⟩ | ⟨rfl, rfl⟩ | ⟨rfl, rfl⟩ |
    ⟨rfl, rfl⟩ | ⟨rfl, rfl⟩
  · exact concatenate_from_runs answer "" args
  · exact concatenate_from_runs answer "" args
  · match args with
    | [condition, yes] => exact choose_runs answer condition yes none
    | [condition, yes, no] => exact choose_runs answer condition yes (some no)
    | [] | [_] | _ :: _ :: _ :: _ :: _ => rfl
  · match args with
    | [value, fallback] => exact or_else_runs answer value fallback
    | [] | [_] | _ :: _ :: _ :: _ => rfl
  · match args with
    | [sought, range] => exact match_position_runs answer sought range none
    | [sought, range, type] => exact match_position_runs answer sought range (some type)
    | [] | [_] | _ :: _ :: _ :: _ :: _ => rfl
  · exact sum_from_runs answer 0.0 args
  · match args with
    | [sought, table, column] => exact vlookup_runs answer sought table column none
    | [sought, table, column, mode] => exact vlookup_runs answer sought table column (some mode)
    | [] | [_] | [_, _] | _ :: _ :: _ :: _ :: _ :: _ => rfl

theorem functions_all : (Evaluation.functions (τ := τ)).map Prod.fst = Function.all := rfl

theorem call_runs (name : String) (args : List Argument) :
    Evaluation.call name (args.map (·.unevaluated answer)) =
      (Function.call name args).run answer := by
  have named : Function.named? name =
      ((Evaluation.functions (τ := τ)).find? fun entry =>
        entry.1.name == Text.upper name).map Prod.fst := by
    rw [Function.named?, ← functions_all (τ := τ), List.find?_map]
    rfl
  unfold Evaluation.call Function.call
  rw [named]
  cases found : (Evaluation.functions (τ := τ)).find? fun entry =>
      entry.1.name == Text.upper name with
  | none => rfl
  | some entry =>
    obtain ⟨f, act⟩ := entry
    simp only [Option.map_some, List.length_map]
    cases f.accepts args.length with
    | true => exact functions_run answer f act (List.mem_of_find?_eq_some found) args
    | false => rfl

end Run

namespace Evaluator

variable {τ : Type} (ev : Evaluator τ)

theorem sheet_of_runs (sheet? : Option String) :
    ev.sheetOf sheet? = (Formula.sheetOf ev.home sheet?).run ev.query := by
  cases sheet? with
  | none => rfl
  | some name => exact (run_query ev.query _).symm

theorem value_runs (r : Reference) : ev.value r = (r.value ev.home).run ev.query := by
  simp only [value, Reference.value, run_bind, sheet_of_runs]
  apply bind_congr
  intro found
  cases found with
  | none => rfl
  | some sheet =>
    cases r.target with
    | cell a => exact (run_query ev.query _).symm
    | range range =>
      dsimp only
      cases range.isSingle with
      | true => exact (run_query ev.query _).symm
      | false => rfl

theorem operand_runs (r : Reference) : ev.operand r = (r.operand ev.home).run ev.query := by
  simp only [operand, Reference.operand, run_bind, sheet_of_runs]
  apply bind_congr
  intro found
  cases found with
  | none => rfl
  | some sheet =>
    cases r.target with
    | cell a => rfl
    | range range => rfl

theorem table_runs (r : Reference) : ev.table r = (r.table ev.home).run ev.query := by
  simp only [table, Reference.table, run_bind, sheet_of_runs]
  apply bind_congr
  intro found
  cases found with
  | none => rfl
  | some sheet => rfl

theorem argument_runs (e : Expr) :
    ev.argument e ((e.evaluate ev.home).run ev.query) =
      (e.argument ev.home).unevaluated ev.query := by
  cases e with
  | reference r => simp only [argument, Expr.evaluate, Expr.argument, Argument.unevaluated,
      Argument.value, Argument.operand, Argument.table, operand_runs, table_runs]
  | _ => simp only [argument, Expr.argument, Argument.unevaluated, Argument.value,
      Argument.operand, Argument.table, run_bind, run_pure]

mutual

-- Every form of expression.
theorem evaluate_runs (e : Expr) : ev.evaluate e = (e.evaluate ev.home).run ev.query := by
  cases e with
  | number n => rfl
  | text s => rfl
  | boolean b => rfl
  | error e => rfl
  | name s => rfl
  | reference r => exact value_runs ev r
  | negate operand =>
    simp only [evaluate, Expr.evaluate, run_bind, evaluate_runs operand]
    rfl
  | binary op left right =>
    simp only [evaluate, Expr.evaluate, run_bind, evaluate_runs left, evaluate_runs right]
    rfl
  | call function args =>
    simp only [evaluate, Expr.evaluate, arguments_run args, call_runs]

theorem arguments_run (args : List Expr) :
    ev.arguments args = (Expr.argumentsOf ev.home args).map (·.unevaluated ev.query) := by
  cases args with
  | nil => rfl
  | cons e rest =>
    rw [arguments_of_eq]
    simp only [arguments, arguments_run rest, evaluate_runs e, argument_runs, List.map_cons,
      arguments_of_eq]

end

end Evaluator

end Spreadsheet.Formula
