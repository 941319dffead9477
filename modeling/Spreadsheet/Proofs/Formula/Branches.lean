import Spreadsheet.Proofs.Formula.Evaluation

-- Branches that are not taken. At any place of a tree, evaluation either never comes to the
-- expression there or asks what it asks; where it never comes, calls can be exchanged, and where it
-- comes, a call counts by its course alone. The course of `IF` and of `IFERROR` depends on the
-- branch that the first argument selects and on no other.

set_option autoImplicit false

namespace Spreadsheet.Formula

-- The node around a place, with all that it holds besides.
inductive Frame where
  | negate
  | left (op : BinaryOp) (other : Expr)
  | right (op : BinaryOp) (other : Expr)
  | argument (function : String) (before after : List Expr)

def Frame.fill : Frame → Expr → Expr
  | negate, e => .negate e
  | left op other, e => .binary op e other
  | right op other, e => .binary op other e
  | argument function before after, e => .call function (before ++ e :: after)

-- A place in a tree: the nodes around it, from the innermost one to the root.
abbrev Place : Type := List Frame

def Place.fill : Place → Expr → Expr
  | [], e => e
  | frame :: outer, e => Place.fill outer (frame.fill e)

-- Evaluation comes to a place when it asks what a call asks that stands there, whatever call that is.
def Place.Reached (home : SheetId) (resolver : Resolver) (place : Place) : Prop :=
  ∀ function args, ∀ q ∈ ((Expr.call function args).course home resolver).2,
    q ∈ ((place.fill (.call function args)).course home resolver).2

-- The functions that evaluate one of several branches.
inductive Choice where
  | ifThen
  | ifError

def Choice.function : Choice → Function
  | ifThen => .ifThen
  | ifError => .ifError

-- The branch that is evaluated, counted from 0, by what the first argument comes to.
def Choice.branch? : Choice → Except StoreError Value → Option Nat
  | ifThen, .ok v => if v.isError then none else if v.truthy then some 0 else some 1
  | ifError, .ok v => if v.isError then some 0 else none
  | _, .error _ => none

section Alike

variable {α β ι : Type} (resolver : Resolver)

theorem trace_bind_alike (s t : Reading α) (f g : α → Reading β)
    (first : s.trace resolver = t.trace resolver)
    (rest : ∀ a, (s.trace resolver).2 = .ok a → (f a).trace resolver = (g a).trace resolver) :
    (s >>= f).trace resolver = (t >>= g).trace resolver := by
  rw [Reading.trace_bind, Reading.trace_bind, ← first]
  revert rest
  rcases s.trace resolver with ⟨asked, e | a⟩
  · exact fun _ => rfl
  · intro rest
    simp only [rest a rfl]

-- Arguments that a function cannot tell apart.
structure ArgumentAlike (x y : Argument) : Prop where
  value : x.value.trace resolver = y.value.trace resolver
  operand : x.operand.trace resolver = y.operand.trace resolver
  table : x.table.trace resolver = y.table.trace resolver

theorem computed_alike (s t : Reading Value) (same : s.trace resolver = t.trace resolver) :
    ArgumentAlike resolver (.computed fun _ => s) (.computed fun _ => t) :=
  ⟨same, trace_bind_alike resolver s t _ _ same fun _ _ => rfl,
    trace_bind_alike resolver s t _ _ same fun _ _ => rfl⟩

theorem uses_alike (T : (ι → Argument) → Reading Value) (uses : Uses T) (x y : ι → Argument)
    (alike : ∀ i, ArgumentAlike resolver (x i) (y i)) :
    (T x).trace resolver = (T y).trace resolver := by
  induction uses with
  | done v => rfl
  | value i next _ ih =>
    exact trace_bind_alike resolver _ _ _ _ (alike i).value fun a _ => ih a
  | operand i next _ ih =>
    exact trace_bind_alike resolver _ _ _ _ (alike i).operand fun a _ => ih a
  | table i next _ ih =>
    exact trace_bind_alike resolver _ _ _ _ (alike i).table fun a _ => ih a

end Alike

section Met

variable {α : Type} (resolver : Resolver)

-- What a reading gives does not depend on the one that it is built from.
def Ignores (build : Reading Value → Reading α) : Prop :=
  ∀ s t, (build s).trace resolver = (build t).trace resolver

-- It asks all that the one asks that it is built from.
def Passes (build : Reading Value → Reading α) : Prop :=
  ∀ t, ∀ q ∈ (t.trace resolver).1, q ∈ ((build t).trace resolver).1

theorem asked_first {β : Type} (t : Reading α) (f : α → Reading β) (q : Query)
    (asked : q ∈ (t.trace resolver).1) : q ∈ ((t >>= f).trace resolver).1 := by
  rw [Reading.trace_bind]
  revert asked
  rcases t.trace resolver with ⟨course, e | a⟩
  · exact id
  · exact List.mem_append_left _

-- Arguments of which those without a value of their own are all the same reading.
def around (t : Reading Value) (i : Option Argument) : Argument := i.getD (.computed fun _ => t)

theorem bind_met (take : Argument → Reading α)
    (passes : Passes resolver fun t => take (.computed fun _ => t)) (i : Option Argument)
    (next : α → Reading Value → Reading Value)
    (each : ∀ a, Ignores resolver (next a) ∨ Passes resolver (next a)) :
    Ignores resolver (fun t => take (around t i) >>= fun a => next a t) ∨
      Passes resolver (fun t => take (around t i) >>= fun a => next a t) := by
  cases i with
  | none => exact .inr fun t q asked => asked_first resolver _ _ q (passes t q asked)
  | some x =>
    simp only [Ignores, Passes, around, Option.getD_some, Reading.trace_bind]
    rcases (take x).trace resolver with ⟨course, e | a⟩
    · exact .inl fun _ _ => rfl
    · cases each a with
      | inl ignores =>
        refine .inl fun s t => ?_
        simp only [ignores s t]
      | inr passes => exact .inr fun t q asked => List.mem_append_right course (passes t q asked)

theorem uses_met (T : (Option Argument → Argument) → Reading Value) (uses : Uses T) :
    Ignores resolver (fun t => T (around t)) ∨ Passes resolver (fun t => T (around t)) := by
  induction uses with
  | done v => exact .inl fun _ _ => rfl
  | value i next _ ih =>
    exact bind_met resolver Argument.value (fun _ _ asked => asked) i _ ih
  | operand i next _ ih =>
    exact bind_met resolver Argument.operand (fun _ q => asked_first resolver _ _ q) i _ ih
  | table i next _ ih =>
    exact bind_met resolver Argument.table (fun _ q => asked_first resolver _ _ q) i _ ih

end Met

section Places

variable (home : SheetId) (resolver : Resolver)

-- An expression that functions take by its value alone.
def Computed (e : Expr) : Prop := ∀ r, e ≠ .reference r

theorem computed_argument (e : Expr) (computed : Computed e) :
    e.argument home = .computed fun _ => e.evaluate home := by
  cases e with
  | reference r => exact absurd rfl (computed r)
  | _ => rfl

theorem fill_computed (frame : Frame) (e : Expr) : Computed (frame.fill e) := by
  cases frame <;> exact fun r same => by cases same

-- The value of a node by those of its parts, one of which is the place.
def Frame.apply : Frame → (Option Argument → Argument) → Reading Value
  | negate, args => do return negated (← (args none).value)
  | left op other, args => do
    let a ← (args none).value
    let b ← (args (some (other.argument home))).value
    return op.apply a b
  | right op other, args => do
    let a ← (args (some (other.argument home))).value
    let b ← (args none).value
    return op.apply a b
  | argument function before after, args =>
    Function.call function ((before.map (some ∘ Expr.argument home) ++
      none :: after.map (some ∘ Expr.argument home)).map args)

theorem frame_uses (frame : Frame) : Uses (frame.apply home) := by
  cases frame with
  | negate => exact .value none _ fun v => .done _
  | left op other => exact .value none _ fun a => .value (some _) _ fun b => .done _
  | right op other => exact .value (some _) _ fun a => .value none _ fun b => .done _
  | argument function before after => exact call_uses function _

theorem fill_evaluate (frame : Frame) (e : Expr) (computed : Computed e) :
    (frame.fill e).evaluate home = frame.apply home (around (e.evaluate home)) := by
  cases frame with
  | negate => rfl
  | left op other =>
    simp only [Frame.fill, Frame.apply, Expr.evaluate, around, Option.getD_some, argument_value]
    rfl
  | right op other =>
    simp only [Frame.fill, Frame.apply, Expr.evaluate, around, Option.getD_some, argument_value]
    rfl
  | argument function before after =>
    simp only [Frame.fill, Frame.apply, Expr.evaluate, arguments_of_eq, List.map_append,
      List.map_cons, List.map_map, computed_argument home e computed]
    rfl

theorem fill_alike (frame : Frame) (e d : Expr) (first : Computed e) (second : Computed d)
    (same : (e.evaluate home).trace resolver = (d.evaluate home).trace resolver) :
    ((frame.fill e).evaluate home).trace resolver =
      ((frame.fill d).evaluate home).trace resolver := by
  rw [fill_evaluate home frame e first, fill_evaluate home frame d second]
  apply uses_alike resolver _ (frame_uses home frame)
  intro i
  cases i with
  | none => exact computed_alike resolver _ _ same
  | some x => exact ⟨rfl, rfl, rfl⟩

theorem place_alike (place : Place) (e d : Expr) (first : Computed e) (second : Computed d)
    (same : (e.evaluate home).trace resolver = (d.evaluate home).trace resolver) :
    ((place.fill e).evaluate home).trace resolver =
      ((place.fill d).evaluate home).trace resolver := by
  induction place generalizing e d with
  | nil => exact same
  | cons frame outer ih =>
    have inner := fill_alike home resolver frame e d first second same
    exact ih (frame.fill e) (frame.fill d) (fill_computed frame e) (fill_computed frame d) inner

-- Whatever computed expression stands at the place, the tree has the same course.
def Place.Ignored (place : Place) : Prop :=
  ∀ e d, Computed e → Computed d →
    ((place.fill e).evaluate home).trace resolver = ((place.fill d).evaluate home).trace resolver

-- Whatever computed expression stands at the place, the tree asks all that the expression asks.
def Place.Met (place : Place) : Prop :=
  ∀ e, Computed e → ∀ q ∈ ((e.evaluate home).trace resolver).1,
    q ∈ ((place.fill e).evaluate home |>.trace resolver).1

theorem ignored_or_met (place : Place) :
    place.Ignored home resolver ∨ place.Met home resolver := by
  induction place with
  | nil => exact .inr fun e _ q asked => asked
  | cons frame outer ih =>
    cases ih with
    | inl ignored =>
      exact .inl fun e d _ _ => ignored _ _ (fill_computed frame e) (fill_computed frame d)
    | inr met =>
      cases uses_met resolver (frame.apply home) (frame_uses home frame) with
      | inl ignores =>
        left
        intro e d first second
        apply place_alike home resolver outer _ _ (fill_computed frame e) (fill_computed frame d)
        rw [fill_evaluate home frame e first, fill_evaluate home frame d second]
        exact ignores _ _
      | inr passes =>
        right
        intro e computed q asked
        apply met (frame.fill e) (fill_computed frame e) q
        rw [fill_evaluate home frame e computed]
        exact passes _ q asked

theorem call_computed (function : String) (args : List Expr) :
    Computed (.call function args) := by
  intro r same
  cases same

theorem names_bounded (asked : List Query) :
    ∃ size, ∀ sheet name, Query.sheet sheet name ∈ asked → name.length < size := by
  induction asked with
  | nil => exact ⟨0, by simp⟩
  | cons q rest ih =>
    obtain ⟨size, bound⟩ := ih
    cases q with
    | sheet sheet name =>
      refine ⟨max size (name.length + 1), fun sheet' name' member => ?_⟩
      simp only [List.mem_cons, Query.sheet.injEq] at member
      rcases member with ⟨-, rfl⟩ | later
      · omega
      · have short := bound sheet' name' later
        omega
    | _ => exact ⟨size, fun sheet' name' member => bound sheet' name' (by simpa using member)⟩

-- What stands at a place may ask for a sheet that nothing else in the tree asks for, so a place
-- that is ignored is not reached.
theorem not_ignored_of_reached (place : Place) (reached : place.Reached home resolver) :
    ¬place.Ignored home resolver := by
  intro ignored
  let probe (name : String) : Expr := .call "SUM" [.reference ⟨some name, .cell ⟨1, 1⟩⟩]
  obtain ⟨size, bound⟩ :=
    names_bounded (((place.fill (probe "")).evaluate home).trace resolver).1
  let long := String.ofList (List.replicate size 'x')
  have asks : Query.sheet home long ∈ ((probe long).course home resolver).2 := by
    have first : ∃ next, (probe long).evaluate home = .ask (.sheet home long) next := ⟨_, rfl⟩
    obtain ⟨next, goesOn⟩ := first
    rw [course_trace, goesOn, Reading.trace]
    cases resolver (.sheet home long) with
    | error e => exact List.mem_cons_self
    | ok answer => exact List.mem_cons_self
  have asked := reached "SUM" _ _ asks
  rw [course_trace, ignored (probe long) (probe "") (call_computed _ _) (call_computed _ _)] at asked
  have short := bound home long asked
  simp [long] at short

theorem reached_iff (place : Place) :
    place.Reached home resolver ↔ ¬place.Ignored home resolver := by
  constructor
  · exact not_ignored_of_reached home resolver place
  · intro heeded function args q asked
    have met := (ignored_or_met home resolver place).resolve_left heeded
    rw [course_trace] at asked ⊢
    exact met _ (call_computed function args) q asked

end Places

section Choices

variable (home : SheetId) (resolver : Resolver)

theorem choose_alike (condition yes yes' : Argument) (no? no'? : Option Argument)
    (first : Choice.ifThen.branch? (condition.value.trace resolver).2 = some 0 → yes' = yes)
    (second : Choice.ifThen.branch? (condition.value.trace resolver).2 = some 1 → no'? = no?) :
    (Function.choose condition yes' no'?).trace resolver =
      (Function.choose condition yes no?).trace resolver := by
  refine trace_bind_alike resolver _ _ _ _ rfl fun v came => ?_
  simp only [came, Choice.branch?] at first second
  cases failed : v.isError with
  | true => rfl
  | false =>
    cases holds : v.truthy with
    | true =>
      have same : yes' = yes := first (by simp only [failed, holds]; rfl)
      rw [same]
      rfl
    | false =>
      have same : no'? = no? := second (by simp only [failed, holds]; rfl)
      rw [same]
      rfl

theorem or_else_alike (value fallback fallback' : Argument)
    (first : Choice.ifError.branch? (value.value.trace resolver).2 = some 0 →
      fallback' = fallback) :
    (Function.orElse value fallback').trace resolver =
      (Function.orElse value fallback).trace resolver := by
  refine trace_bind_alike resolver _ _ _ _ rfl fun v came => ?_
  simp only [came, Choice.branch?] at first
  cases failed : v.isError with
  | true =>
    have same : fallback' = fallback := first (by simp only [failed]; rfl)
    rw [same]
  | false => rfl

theorem branch_count (choice : Choice) (count : Nat)
    (accepted : choice.function.accepts (count + 1) = true) :
    count = 1 ∨ choice = .ifThen ∧ count = 2 := by
  obtain ⟨enough, limited⟩ := Bool.and_eq_true_iff.mp accepted
  cases choice with
  | ifThen =>
    have least : 2 ≤ count + 1 := of_decide_eq_true enough
    have most : count + 1 ≤ 3 := of_decide_eq_true limited
    have split : count = 1 ∨ count = 2 := by omega
    exact split.imp_right fun two => ⟨rfl, two⟩
  | ifError =>
    have least : 2 ≤ count + 1 := of_decide_eq_true enough
    have most : count + 1 ≤ 2 := of_decide_eq_true limited
    exact .inl (by omega)

-- Branches that agree on the one that is evaluated are the same to the function.
theorem choice_alike (choice : Choice) (first : Expr) (others branches : List Expr)
    (accepted : choice.function.accepts (branches.length + 1) = true)
    (same : others.length = branches.length)
    (kept : ∀ i, choice.branch? ((first.evaluate home).trace resolver).2 = some i →
      others[i]? = branches[i]?) :
    (choice.function.apply (Expr.argumentsOf home (first :: others))).trace resolver =
      (choice.function.apply (Expr.argumentsOf home (first :: branches))).trace resolver := by
  simp only [arguments_of_eq, List.map_cons]
  rw [← argument_value] at kept
  have count := branch_count choice branches.length accepted
  cases choice with
  | ifThen =>
    match others, branches with
    | [yes'], [yes] =>
      refine choose_alike resolver _ _ _ none none (fun taken => ?_) fun _ => rfl
      have agree := kept 0 taken
      simp only [List.getElem?_cons_zero, Option.some.injEq] at agree
      rw [agree]
    | [yes', no'], [yes, no] =>
      refine choose_alike resolver _ _ _ (some _) (some _) (fun taken => ?_) fun taken => ?_
      · have agree := kept 0 taken
        simp only [List.getElem?_cons_zero, Option.some.injEq] at agree
        rw [agree]
      · have agree := kept 1 taken
        simp only [List.getElem?_cons_succ, List.getElem?_cons_zero, Option.some.injEq] at agree
        rw [agree]
    | [], [] => exact absurd count (by simp)
    | _ :: _ :: _ :: _, _ :: _ :: _ :: _ => exact absurd count (by simp)
  | ifError =>
    match others, branches with
    | [fallback'], [fallback] =>
      refine or_else_alike resolver _ _ _ fun taken => ?_
      have agree := kept 0 taken
      simp only [List.getElem?_cons_zero, Option.some.injEq] at agree
      rw [agree]
    | [], [] => exact absurd count (by simp)
    | _ :: _ :: _, _ :: _ :: _ => exact absurd count (by simp)

theorem branches_alike (choice : Choice) (function : String)
    (named : Function.named? function = some choice.function) (first : Expr)
    (others branches : List Expr)
    (accepted : choice.function.accepts (branches.length + 1) = true)
    (same : others.length = branches.length)
    (kept : ∀ i, choice.branch? ((first.evaluate home).trace resolver).2 = some i →
      others[i]? = branches[i]?) :
    ((Expr.call function (first :: others)).evaluate home).trace resolver =
      ((Expr.call function (first :: branches)).evaluate home).trace resolver := by
  have applied (rest : List Expr) (count : rest.length = branches.length) :
      (Expr.call function (first :: rest)).evaluate home =
        choice.function.apply (Expr.argumentsOf home (first :: rest)) := by
    have counted : (Expr.argumentsOf home (first :: rest)).length = branches.length + 1 := by
      simp only [arguments_of_eq, List.length_map, List.length_cons, count]
    simp only [Expr.evaluate, Function.call, named, counted, accepted, if_true]
  rw [applied others same, applied branches rfl]
  exact choice_alike home resolver choice first others branches accepted same kept

end Choices

theorem branches_not_taken (home : SheetId) (resolver : Resolver) (place : Place)
    (choice : Choice) (function : String)
    (named : Function.named? function = some choice.function) (first : Expr)
    (others branches : List Expr)
    (accepted : choice.function.accepts (branches.length + 1) = true)
    (same : others.length = branches.length)
    (kept : place.Reached home resolver →
      ∀ i, choice.branch? (first.course home resolver).1 = some i → others[i]? = branches[i]?) :
    (place.fill (.call function (first :: others))).course home resolver =
      (place.fill (.call function (first :: branches))).course home resolver := by
  have different := call_computed function (first :: others)
  have original := call_computed function (first :: branches)
  have alike : ((place.fill (.call function (first :: others))).evaluate home).trace resolver =
      ((place.fill (.call function (first :: branches))).evaluate home).trace resolver := by
    cases Classical.em (place.Ignored home resolver) with
    | inl ignored => exact ignored _ _ different original
    | inr heeded =>
      have taken := kept ((reached_iff home resolver place).mpr heeded)
      rw [course_trace] at taken
      apply place_alike home resolver place _ _ different original
      exact branches_alike home resolver choice function named first others branches accepted same
        taken
  rw [course_trace, course_trace, alike]

-- The condition holds, so the sum over another sheet, whose name cannot be looked up, may stand for
-- the second branch, although the tree goes on after the call and fails later.
theorem branches_not_taken_in_sum :
    let home : SheetId := ⟨1⟩
    let cell (column : Nat) : Expr := .reference ⟨none, .cell ⟨1, column⟩⟩
    let resolver : Resolver := fun
      | .cell k => if k.addr.col = 3 then .error (.unavailable "torn") else .ok (.boolean true)
      | .range r => .ok (.ofList r.range [])
      | .sheet _ _ => .error (.unavailable "no names")
    let place : Place := [.argument "SUM" [cell 4] [cell 5], .left .add (cell 3)]
    let other : Expr := .call "SUM" [.reference ⟨some "Rates", .cell ⟨1, 1⟩⟩]
    Function.named? "If" = some Choice.ifThen.function ∧
      Choice.ifThen.function.accepts 3 = true ∧
      (∀ i, Choice.ifThen.branch? ((cell 1).course home resolver).1 = some i →
        [cell 2, other][i]? = [cell 2, cell 3][i]?) ∧
      (place.fill (.call "If" [cell 1, cell 2, other])).course home resolver =
        (place.fill (.call "If" [cell 1, cell 2, cell 3])).course home resolver := by
  intro home cell resolver place other
  have named : Function.named? "If" = some Choice.ifThen.function := rfl
  have taken : Choice.ifThen.branch? ((cell 1).course home resolver).1 = some 0 := rfl
  have kept : ∀ i, Choice.ifThen.branch? ((cell 1).course home resolver).1 = some i →
      [cell 2, other][i]? = [cell 2, cell 3][i]? := by
    intro i chosen
    have zero : i = 0 := Option.some.inj (chosen.symm.trans taken)
    rw [zero]
    rfl
  exact ⟨named, rfl, kept, branches_not_taken home resolver place .ifThen "If" named (cell 1) _ _
    rfl rfl fun _ => kept⟩

end Spreadsheet.Formula
