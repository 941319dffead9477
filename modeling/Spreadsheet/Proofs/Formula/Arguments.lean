import Spreadsheet.Formula.Evaluation

-- What functions do with their arguments: they take them one after the other, each as a value, as
-- an operand or as a table, and what one has given decides which is the next. So a fact about all
-- functions is a fact about these three steps.

set_option autoImplicit false

namespace Spreadsheet.Formula

variable {ι : Type}

inductive Uses : ((ι → Argument) → Reading Value) → Prop where
  | done (v : Value) : Uses fun _ => .done v
  | value (i : ι) (next : Value → (ι → Argument) → Reading Value) (each : ∀ v, Uses (next v)) :
      Uses fun args => (args i).value >>= fun v => next v args
  | operand (i : ι) (next : Operand → (ι → Argument) → Reading Value)
      (each : ∀ operand, Uses (next operand)) :
      Uses fun args => (args i).operand >>= fun operand => next operand args
  | table (i : ι) (next : Except ErrorKind RangeValues → (ι → Argument) → Reading Value)
      (each : ∀ found, Uses (next found)) :
      Uses fun args => (args i).table >>= fun found => next found args

theorem uses_value (i : ι) : Uses fun args => (args i).value := by
  have whole := Uses.value i (fun v _ => .done v) fun v => .done v
  have same : (fun args : ι → Argument => (args i).value >>= Reading.done) =
      fun args => (args i).value := funext fun args => Reading.bind_done _
  exact same ▸ whole

theorem uses_number (i : ι) (next : Except ErrorKind Float → (ι → Argument) → Reading Value)
    (each : ∀ n, Uses (next n)) :
    Uses fun args => (Value.toNumber <$> (args i).value) >>= fun n => next n args := by
  have whole := Uses.value i (fun v => next v.toNumber) fun v => each v.toNumber
  have same : (fun args : ι → Argument => (args i).value >>= fun v => next v.toNumber args) =
      fun args => (Value.toNumber <$> (args i).value) >>= fun n => next n args :=
    funext fun args => (Reading.bind_assoc (args i).value (fun v => .done v.toNumber)
      (fun n => next n args)).symm
  exact same ▸ whole

theorem sum_from_uses (total : Float) (places : List ι) :
    Uses fun args => Function.sumFrom total (places.map args) := by
  induction places generalizing total with
  | nil => exact .done _
  | cons i rest ih =>
    refine .operand i _ fun operand => ?_
    cases operand with
    | range values => exact ih _
    | unresolved => exact .done _
    | scalar v =>
      dsimp only
      cases v.asNumber? with
      | some n => exact ih _
      | none => exact ih _

theorem concatenate_from_uses (text : String) (places : List ι) :
    Uses fun args => Function.concatenateFrom text (places.map args) := by
  induction places generalizing text with
  | nil => exact .done _
  | cons i rest ih =>
    refine .operand i _ fun operand => ?_
    cases operand with
    | unresolved => exact .done _
    | scalar v =>
      dsimp only
      cases Function.joinFrom text [v] with
      | error e => exact .done _
      | ok text => exact ih _
    | range values =>
      dsimp only
      cases Function.joinFrom text (values.toList.map Prod.snd) with
      | error e => exact .done _
      | ok text => exact ih _

theorem choose_uses (condition yes : ι) (no? : Option ι) :
    Uses fun args => Function.choose (args condition) (args yes) (no?.map args) := by
  refine .value condition _ fun v => ?_
  cases v.isError with
  | true => exact .done _
  | false =>
    cases v.truthy with
    | true => exact uses_value yes
    | false =>
      cases no? with
      | none => exact .done _
      | some no => exact uses_value no

theorem or_else_uses (value fallback : ι) :
    Uses fun args => Function.orElse (args value) (args fallback) := by
  refine .value value _ fun v => ?_
  cases v.isError with
  | true => exact uses_value fallback
  | false => exact .done _

theorem vlookup_uses (sought table column : ι) (mode? : Option ι) :
    Uses fun args => vlookup (args sought) (args table) (args column) (mode?.map args) := by
  refine .value sought _ fun v => ?_
  refine .table table _ fun found => ?_
  cases found with
  | error e => exact .done _
  | ok values =>
    refine .value column _ fun number => ?_
    cases columnIndex values number with
    | error e => exact .done _
    | ok n =>
      cases mode? with
      | none => exact .done _
      | some mode =>
        refine .value mode _ fun m => ?_
        cases m.error? with
        | some e => exact .done _
        | none =>
          dsimp only
          cases asksExact m with
          | true => exact .done _
          | false => exact .done _

theorem match_position_uses (sought range : ι) (type? : Option ι) :
    Uses fun args => matchPosition (args sought) (args range) (type?.map args) := by
  refine .value sought _ fun v => ?_
  refine .table range _ fun found => ?_
  cases found with
  | error e => exact .done _
  | ok values =>
    cases type? with
    | none =>
      dsimp only [Option.map_none, pure, bind, Reading.bind]
      cases (search v 1.0 values.toList).bind values.position? with
      | none => exact .done _
      | some place => exact .done _
    | some type =>
      refine uses_number type _ fun n => ?_
      cases n with
      | error e => exact .done _
      | ok n =>
        dsimp only
        cases (search v n values.toList).bind values.position? with
        | none => exact .done _
        | some place => exact .done _

theorem function_uses (f : Function) (member : f ∈ Function.all) (places : List ι) :
    Uses fun args => f.apply (places.map args) := by
  simp only [Function.all, List.mem_cons, List.not_mem_nil, or_false] at member
  rcases member with rfl | rfl | rfl | rfl | rfl | rfl | rfl
  · exact concatenate_from_uses "" places
  · exact concatenate_from_uses "" places
  · match places with
    | [condition, yes] => exact choose_uses condition yes none
    | [condition, yes, no] => exact choose_uses condition yes (some no)
    | [] | [_] | _ :: _ :: _ :: _ :: _ => exact .done _
  · match places with
    | [value, fallback] => exact or_else_uses value fallback
    | [] | [_] | _ :: _ :: _ :: _ => exact .done _
  · match places with
    | [sought, range] => exact match_position_uses sought range none
    | [sought, range, type] => exact match_position_uses sought range (some type)
    | [] | [_] | _ :: _ :: _ :: _ :: _ => exact .done _
  · exact sum_from_uses 0.0 places
  · match places with
    | [sought, table, column] => exact vlookup_uses sought table column none
    | [sought, table, column, mode] => exact vlookup_uses sought table column (some mode)
    | [] | [_] | [_, _] | _ :: _ :: _ :: _ :: _ :: _ => exact .done _

theorem call_uses (name : String) (places : List ι) :
    Uses fun args => Function.call name (places.map args) := by
  unfold Function.call
  cases found : Function.named? name with
  | none => exact .done _
  | some f =>
    simp only [List.length_map]
    cases f.accepts places.length with
    | true => exact function_uses f (List.mem_of_find?_eq_some found) places
    | false => exact .done _

section Arguments

variable (home : SheetId)

def Expr.argument : Expr → Argument
  | .reference r => .reference home r
  | e => .computed fun _ => e.evaluate home

theorem argument_value (e : Expr) : (e.argument home).value = e.evaluate home := by
  cases e <;> rfl

theorem arguments_of_eq (args : List Expr) :
    Expr.argumentsOf home args = args.map (Expr.argument home) := by
  induction args with
  | nil => rfl
  | cons e rest ih => cases e <;> simp only [Expr.argumentsOf, ih, List.map_cons, Expr.argument]

end Arguments

end Spreadsheet.Formula
