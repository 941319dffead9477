import Spreadsheet.Formula.Evaluation
import Spreadsheet.Proofs.Formula.Substitution

-- Sizes of trees: how many operators and calls a tree has, and how many stand around one another.
-- Evaluation goes down one level for each of these, so an evaluation that has room for the levels
-- of a tree is the evaluation of the tree. Trees put in the place of names add their own sizes.

set_option autoImplicit false

namespace Spreadsheet.Formula

namespace Expr

mutual

def nodes : Expr → Nat
  | negate operand => operand.nodes + 1
  | binary _ left right => left.nodes + right.nodes + 1
  | call _ args => nodesIn args + 1
  | _ => 0

def nodesIn : List Expr → Nat
  | [] => 0
  | e :: rest => e.nodes + nodesIn rest

end

mutual

-- The most operators and calls around one another.
def levels : Expr → Nat
  | negate operand => operand.levels + 1
  | binary _ left right => max left.levels right.levels + 1
  | call _ args => levelsIn args + 1
  | _ => 0

def levelsIn : List Expr → Nat
  | [] => 0
  | e :: rest => max e.levels (levelsIn rest)

end

mutual

theorem levels_le_nodes (e : Expr) : e.levels ≤ e.nodes := by
  cases e with
  | negate operand =>
    have inner := levels_le_nodes operand
    simp only [levels, nodes]
    omega
  | binary op left right =>
    have first := levels_le_nodes left
    have second := levels_le_nodes right
    simp only [levels, nodes]
    omega
  | call function args =>
    have inner := levels_in_le_nodes_in args
    simp only [levels, nodes]
    omega
  | _ => exact Nat.le_refl 0

theorem levels_in_le_nodes_in (args : List Expr) : levelsIn args ≤ nodesIn args := by
  cases args with
  | nil => exact Nat.le_refl 0
  | cons e rest =>
    have first := levels_le_nodes e
    have later := levels_in_le_nodes_in rest
    simp only [levelsIn, nodesIn]
    omega

end

mutual

-- Evaluation that goes down through no more operators and calls than there is room for, and has
-- `beyond` for the value of what is further down.
def evaluateWithin (home : SheetId) (beyond : Reading Value) : Expr → Nat → Reading Value
  | negate operand, room + 1 => do return negated (← operand.evaluateWithin home beyond room)
  | binary op left right, room + 1 => do
    let a ← left.evaluateWithin home beyond room
    let b ← right.evaluateWithin home beyond room
    return op.apply a b
  | call function args, room + 1 => Function.call function (argumentsWithin home beyond args room)
  | negate _, 0 => beyond
  | binary _ _ _, 0 => beyond
  | call _ _, 0 => beyond
  | leaf, _ => leaf.evaluate home

def argumentsWithin (home : SheetId) (beyond : Reading Value) : List Expr → Nat → List Argument
  | [], _ => []
  | reference r :: rest, room => .reference home r :: argumentsWithin home beyond rest room
  | e :: rest, room =>
    .computed (fun _ => e.evaluateWithin home beyond room) :: argumentsWithin home beyond rest room

end

section Within

variable (home : SheetId) (beyond : Reading Value)

mutual

theorem evaluate_within (e : Expr) (room : Nat) (enough : e.levels ≤ room) :
    e.evaluateWithin home beyond room = e.evaluate home := by
  cases e with
  | negate operand =>
    cases room with
    | zero => exact absurd enough (Nat.not_succ_le_zero _)
    | succ below =>
      have inner := evaluate_within operand below (Nat.le_of_succ_le_succ enough)
      simp only [evaluateWithin, evaluate, inner]
  | binary op left right =>
    cases room with
    | zero => exact absurd enough (Nat.not_succ_le_zero _)
    | succ below =>
      have both : max left.levels right.levels ≤ below := Nat.le_of_succ_le_succ enough
      have first := evaluate_within left below (by omega)
      have second := evaluate_within right below (by omega)
      simp only [evaluateWithin, evaluate, first, second]
  | call function args =>
    cases room with
    | zero => exact absurd enough (Nat.not_succ_le_zero _)
    | succ below =>
      have inner := arguments_within args below (Nat.le_of_succ_le_succ enough)
      simp only [evaluateWithin, evaluate, inner]
  | _ => rfl

theorem arguments_within (args : List Expr) (room : Nat) (enough : levelsIn args ≤ room) :
    argumentsWithin home beyond args room = argumentsOf home args := by
  cases args with
  | nil => rfl
  | cons e rest =>
    simp only [levelsIn] at enough
    have first := evaluate_within e room (by omega)
    have later := arguments_within rest room (by omega)
    cases e <;> simp only [argumentsWithin, argumentsOf, first, later]

end

end Within

section Replace

variable (tree? : String → Option Expr)

-- The operators and calls of the trees that names stand for.
def nodesOf : List String → Nat
  | [] => 0
  | first :: rest => ((tree? first).map nodes).getD 0 + nodesOf rest

theorem nodes_of_append (names others : List String) :
    nodesOf tree? (names ++ others) = nodesOf tree? names + nodesOf tree? others := by
  induction names with
  | nil => exact (Nat.zero_add _).symm
  | cons name rest ih => simp only [List.cons_append, nodesOf, ih, Nat.add_assoc]

theorem nodes_of_plain (names : List String)
    (plain : ∀ name ∈ names, ∀ tree, tree? name = some tree → tree.nodes = 0) :
    nodesOf tree? names = 0 := by
  induction names with
  | nil => rfl
  | cons name rest ih =>
    have later := ih fun other member => plain other (List.mem_cons_of_mem name member)
    have first := plain name List.mem_cons_self
    cases stands : tree? name with
    | none => simp only [nodesOf, stands, Option.map_none, Option.getD_none, later]
    | some tree =>
      simp only [nodesOf, stands, Option.map_some, Option.getD_some, first tree stands, later]

mutual

theorem nodes_replace (e : Expr) :
    (e.replace tree?).nodes = e.nodes + nodesOf tree? e.openNames := by
  cases e with
  | name s =>
    simp only [replace, openNames, nodesOf, nodes]
    cases tree? s with
    | none => rfl
    | some tree => exact (Nat.zero_add _).symm
  | negate operand =>
    have inner := nodes_replace operand
    simp only [replace, nodes, openNames]
    omega
  | binary op left right =>
    have first := nodes_replace left
    have second := nodes_replace right
    simp only [replace, nodes, openNames, nodes_of_append]
    omega
  | call function args =>
    have inner := nodes_in_replace_in args
    simp only [replace, nodes, openNames]
    omega
  | _ => rfl

theorem nodes_in_replace_in (args : List Expr) :
    nodesIn (replaceIn tree? args) = nodesIn args + nodesOf tree? (openNamesIn args) := by
  cases args with
  | nil => rfl
  | cons e rest =>
    have first := nodes_replace e
    have later := nodes_in_replace_in rest
    simp only [replaceIn, nodesIn, openNamesIn, nodes_of_append]
    omega

end

variable (most : Nat)

mutual

theorem levels_replace (bounded : ∀ name tree, tree? name = some tree → tree.levels ≤ most)
    (e : Expr) : (e.replace tree?).levels ≤ e.levels + most := by
  cases e with
  | name s =>
    cases found : tree? s with
    | none => simp [replace, found, levels]
    | some tree =>
      have small := bounded s tree found
      simpa [replace, found, levels] using small
  | negate operand =>
    have inner := levels_replace bounded operand
    simp only [replace, levels]
    omega
  | binary op left right =>
    have first := levels_replace bounded left
    have second := levels_replace bounded right
    simp only [replace, levels]
    omega
  | call function args =>
    have inner := levels_in_replace_in bounded args
    simp only [replace, levels]
    omega
  | _ => exact Nat.zero_le _

theorem levels_in_replace_in (bounded : ∀ name tree, tree? name = some tree → tree.levels ≤ most)
    (args : List Expr) : levelsIn (replaceIn tree? args) ≤ levelsIn args + most := by
  cases args with
  | nil => exact Nat.zero_le _
  | cons e rest =>
    have first := levels_replace bounded e
    have later := levels_in_replace_in bounded rest
    simp only [replaceIn, levelsIn]
    omega

end

end Replace

end Expr

end Spreadsheet.Formula
