import Spreadsheet.Proofs.Formula.Answered
import Spreadsheet.Proofs.Formula.Tables

-- Texts joined by a call and by a chain of operators. Both carry a text until the first error, and
-- an empty cell, which only the chain takes up, leaves it as it is.

set_option autoImplicit false

namespace Spreadsheet.Formula

section Values

-- What has been joined so far, or the error that stopped it.
def outcome : Except ErrorKind String → Value
  | .ok text => .text text
  | .error e => .error e

def joinAll (start : Value) (values : List Value) : Value :=
  values.foldl (BinaryOp.apply .concat) start

theorem apply_outcome (r : Except ErrorKind String) (v : Value) :
    BinaryOp.apply .concat (outcome r) v = outcome (r.bind fun text => Function.joinFrom text [v]) := by
  cases r with
  | error e => rfl
  | ok text => cases v <;> rfl

theorem join_all_outcome (r : Except ErrorKind String) (values : List Value) :
    joinAll (outcome r) values = outcome (r.bind fun text => Function.joinFrom text values) := by
  induction values generalizing r with
  | nil => cases r <;> rfl
  | cons v rest ih =>
    rw [joinAll, List.foldl_cons, apply_outcome, ← joinAll, ih]
    cases r with
    | error e => rfl
    | ok text => cases v <;> rfl

theorem join_filled (text : String) (values : List Value) :
    Function.joinFrom text (values.filter fun v => !v.isEmpty) = Function.joinFrom text values := by
  induction values generalizing text with
  | nil => rfl
  | cons v rest ih =>
    cases v with
    | empty =>
      have still : text ++ Value.empty.toText = text := String.append_empty
      exact (ih text).trans (congrArg (Function.joinFrom · rest) still.symm)
    | error e => rfl
    | _ => exact ih _

end Values

section Pieces

variable (contents : Contents) (home : SheetId)

-- The values that an argument puts into a text.
def Operand.pieces : Operand → List Value
  | .unresolved => [.error .ref]
  | .scalar v => [v]
  | .range values => values.toList.map Prod.snd

-- The single cells that stand for a range in a chain of operators; where its sheet does not
-- exist, one of them is enough.
def spread : Expr → List Expr
  | .reference ⟨sheet?, .range r⟩ =>
    if ((⟨sheet?, .range r⟩ : Reference).boundBy home fun q => .ok (contents.answer q)).isSome then
      r.cells.map fun a => .reference ⟨sheet?, .cell a⟩
    else [.reference ⟨sheet?, .cell r.first⟩]
  | e => [e]

theorem concatenate_step (text : String) (arg : Argument) (rest : List Argument) :
    (Function.concatenateFrom text (arg :: rest)).value contents.answer =
      match Function.joinFrom text (arg.operand.value contents.answer).pieces with
      | .error e => .error e
      | .ok text => (Function.concatenateFrom text rest).value contents.answer := by
  rw [Function.concatenateFrom, Reading.value_bind]
  cases arg.operand.value contents.answer with
  | unresolved => rfl
  | scalar v =>
    dsimp only [Operand.pieces]
    cases Function.joinFrom text [v] <;> rfl
  | range values =>
    dsimp only [Operand.pieces]
    cases Function.joinFrom text (values.toList.map Prod.snd) <;> rfl

theorem cell_value (sheet? : Option String) (a : Address) (sheet : SheetId)
    (known : (sheetOf home sheet?).value contents.answer = some sheet) :
    ((Expr.reference ⟨sheet?, .cell a⟩).evaluate home).value contents.answer =
      contents.value ⟨sheet, a⟩ := by
  rw [Expr.evaluate, reference_value, bound_by_sheet, known]
  simp [Reference.on, Target.extent, Range.isSingle, Range.single]
  rfl

theorem computed_pieces (e : Expr) (computed : e.argument home = .computed fun _ => e.evaluate home) :
    ((e.argument home).operand.value contents.answer).pieces =
      [(e.evaluate home).value contents.answer] := by
  rw [computed, Argument.operand, Reading.value_bind]
  rfl

theorem cell_pieces (sheet? : Option String) (a : Address) :
    (((Expr.reference ⟨sheet?, .cell a⟩).argument home).operand.value contents.answer).pieces =
      [((Expr.reference ⟨sheet?, .cell a⟩).evaluate home).value contents.answer] := by
  have operand := reference_operand contents.answer home ⟨sheet?, .cell a⟩
  have value := reference_value contents.answer home ⟨sheet?, .cell a⟩
  rw [Expr.argument, Argument.operand, operand, Expr.evaluate, value, bound_by_sheet]
  cases (sheetOf home sheet?).value contents.answer with
  | none => rfl
  | some sheet =>
    simp [Reference.on, Target.extent, Range.isSingle, Range.single, Operand.pieces]

theorem range_pieces (sheet? : Option String) (r : Range) (sheet : SheetId) (normal : r.Normal)
    (known : (sheetOf home sheet?).value contents.answer = some sheet) (text : String) :
    Function.joinFrom text (r.cells.map fun a => contents.value ⟨sheet, a⟩) =
      Function.joinFrom text
        (((Expr.reference ⟨sheet?, .range r⟩).argument home).operand.value
          contents.answer).pieces := by
  have operand := reference_operand contents.answer home ⟨sheet?, .range r⟩
  rw [bound_by_sheet, known] at operand
  have proper : (contents.rangeValues ⟨sheet, r⟩).Proper := RangeValues.of_list_proper _ _
  have listing : (contents.rangeValues ⟨sheet, r⟩).listing.map Prod.snd =
      r.cells.map fun a => contents.value ⟨sheet, a⟩ := by
    rw [RangeValues.listing, List.map_map]
    refine List.map_congr_left fun a member => ?_
    exact (contents_tell ⟨sheet, r⟩ contents).get_eq a ((r.mem_cells normal a).mp member)
  have pieces : (((Expr.reference ⟨sheet?, .range r⟩).argument home).operand.value
      contents.answer).pieces = (contents.rangeValues ⟨sheet, r⟩).toList.map Prod.snd :=
    congrArg Operand.pieces operand
  rw [pieces, RangeValues.to_list_eq _ proper, ← listing, ← join_filled, List.filter_map]
  rfl

theorem spread_pieces (text : String) (e : Expr)
    (normal : ∀ sheet? r, e = .reference ⟨sheet?, .range r⟩ → r.Normal) :
    Function.joinFrom text ((spread contents home e).map fun f =>
        (f.evaluate home).value contents.answer) =
      Function.joinFrom text ((e.argument home).operand.value contents.answer).pieces := by
  cases e with
  | reference r =>
    obtain ⟨sheet?, target⟩ := r
    cases target with
    | cell a =>
      rw [cell_pieces]
      rfl
    | range r =>
      have bound := bound_by_sheet contents.answer home ⟨sheet?, .range r⟩
      cases known : (sheetOf home sheet?).value contents.answer with
      | none =>
        have operand := reference_operand contents.answer home ⟨sheet?, .range r⟩
        have value := reference_value contents.answer home ⟨sheet?, .cell r.first⟩
        rw [bound_by_sheet, known] at operand value
        rw [known] at bound
        have missing : (((Expr.reference ⟨sheet?, .range r⟩).argument home).operand.value
            contents.answer).pieces = [.error .ref] := congrArg Operand.pieces operand
        rw [spread, bound, missing]
        exact congrArg (fun v => Function.joinFrom text [v]) value
      | some sheet =>
        rw [known] at bound
        rw [← range_pieces contents home sheet? r sheet (normal sheet? r rfl) known, spread, bound,
          Option.map_some, Option.isSome_some, if_pos rfl, List.map_map]
        refine congrArg (Function.joinFrom text) (List.map_congr_left fun a _ => ?_)
        exact cell_value contents home sheet? a sheet known
  | _ =>
    rw [computed_pieces contents home _ rfl]
    rfl

theorem concatenate_value (text : String) (args : List Expr)
    (normal : ∀ sheet? r, .reference ⟨sheet?, .range r⟩ ∈ args → r.Normal) :
    (Function.concatenateFrom text (args.map (Expr.argument home))).value contents.answer =
      joinAll (.text text) ((args.flatMap (spread contents home)).map fun f =>
        (f.evaluate home).value contents.answer) := by
  induction args generalizing text with
  | nil => rfl
  | cons e rest ih =>
    have here := spread_pieces contents home text e fun sheet? r same =>
      normal sheet? r (same ▸ List.mem_cons_self)
    have later := fun text => ih text fun sheet? r member =>
      normal sheet? r (List.mem_cons_of_mem _ member)
    have first := join_all_outcome (.ok text) ((spread contents home e).map fun f =>
      (f.evaluate home).value contents.answer)
    rw [List.map_cons, concatenate_step, ← here, List.flatMap_cons, List.map_append, joinAll,
      List.foldl_append]
    change _ = joinAll (joinAll (outcome (.ok text)) _) _
    rw [first]
    change _ = joinAll (outcome (Function.joinFrom text _)) _
    cases Function.joinFrom text ((spread contents home e).map fun f =>
        (f.evaluate home).value contents.answer) with
    | error kind => exact (join_all_outcome (.error kind) _).symm
    | ok joined => exact later joined

end Pieces

-- Values joined by operators, from left to right.
def chain (args : List Expr) : Expr := args.foldl (.binary .concat) (.text "")

theorem chain_value (answer : (q : Query) → q.Answer) (home : SheetId) (start : Expr)
    (args : List Expr) :
    ((args.foldl (.binary .concat) start).evaluate home).value answer =
      joinAll ((start.evaluate home).value answer)
        (args.map fun e => (e.evaluate home).value answer) := by
  induction args generalizing start with
  | nil => rfl
  | cons e rest ih =>
    have step : ((Expr.binary .concat start e).evaluate home).value answer =
        BinaryOp.apply .concat ((start.evaluate home).value answer)
          ((e.evaluate home).value answer) := by
      rw [Expr.evaluate, Reading.value_bind, Reading.value_bind]
      rfl
    rw [List.foldl_cons, ih, step]
    rfl

theorem concatenate_is_chain (contents : Contents) (home : SheetId) (args : List Expr)
    (given : args ≠ [])
    (normal : ∀ sheet? r, .reference ⟨sheet?, .range r⟩ ∈ args → r.Normal) :
    ((Expr.call "CONCATENATE" args).evaluate home).value contents.answer =
      ((chain (args.flatMap (spread contents home))).evaluate home).value contents.answer := by
  have called : (Expr.call "CONCATENATE" args).evaluate home =
      Function.concatenateFrom "" (args.map (Expr.argument home)) := by
    have accepted : Function.concatenate.accepts (args.map (Expr.argument home)).length = true := by
      have count : 1 ≤ args.length := List.length_pos_iff.mpr given
      simpa [Function.accepts, Function.concatenate] using count
    rw [Expr.evaluate, arguments_of_eq]
    exact if_pos accepted
  rw [called, concatenate_value contents home "" args normal, chain, chain_value]
  rfl

-- The range has gaps and an error, and after it comes one on a sheet that does not exist.
theorem concatenate_is_chain_with_errors :
    let home : SheetId := ⟨1⟩
    let contents : Contents := ((Contents.empty.set ⟨home, ⟨1, 2⟩⟩ (.text "pear")).set
      ⟨home, ⟨2, 1⟩⟩ (.boolean true)).set ⟨home, ⟨3, 2⟩⟩ (.error .notAvailable)
    let block : Range := ⟨⟨1, 1⟩, ⟨3, 2⟩⟩
    let args : List Expr := [.text "a", .reference ⟨none, .range block⟩,
      .reference ⟨some "Gone", .range block⟩]
    let value (e : Expr) : Value := (e.evaluate home).value contents.answer
    block.Normal ∧ (chain (args.flatMap (spread contents home))).references.length = 7 ∧
      value (.call "CONCATENATE" args) = value (chain (args.flatMap (spread contents home))) ∧
      value (.call "CONCATENATE" args) = .error .notAvailable := by
  intro home contents block args value
  have normal : block.Normal := by decide
  have ranges : ∀ sheet? r, .reference ⟨sheet?, .range r⟩ ∈ args → r.Normal := by
    intro sheet? r member
    simp only [args, List.mem_cons, List.not_mem_nil, or_false] at member
    rcases member with same | same | same
    · cases same
    · cases same
      exact normal
    · cases same
      exact normal
  exact ⟨normal, by rfl, concatenate_is_chain contents home args (by simp [args]) ranges, by rfl⟩

end Spreadsheet.Formula
