import Spreadsheet.Formula.Parser

-- Trees in the place of names. A name that is defined by a text stands for the tree of that text,
-- if there is one, and where every name of a tree stands for one, all can be put in at once.

set_option autoImplicit false

namespace Spreadsheet.Formula

namespace Names

-- The text of the last entry whose name has the same capitals.
def lastText (entries : List (String × String)) (name : String) : Option String :=
  (entries.reverse.find? fun entry => Text.upper entry.1 = Text.upper name).map Prod.snd

theorem get?_insert_all (names : Names) (entries : List (String × String)) (name : String) :
    (names.insertAll entries).get? name = (lastText entries name).or (names.get? name) := by
  induction entries generalizing names with
  | nil => rfl
  | cons entry rest ih =>
    obtain ⟨key, text⟩ := entry
    have later := ih (names.insert key text)
    rw [get?_insert] at later
    simp only [lastText, List.reverse_cons, List.find?_append, List.find?_singleton] at later ⊢
    refine later.trans ?_
    cases rest.reverse.find? fun entry => Text.upper entry.1 = Text.upper name with
    | some found => rfl
    | none =>
      by_cases same : Text.upper key = Text.upper name
      · simp [same]
      · simp [same]

end Names

-- What each name stands for, where it is defined.
abbrev Meaning : Type := String → Option (Except ParseError Expr)

namespace Expr

mutual

-- The names left open, from left to right.
def openNames : Expr → List String
  | name s => [s]
  | negate operand => operand.openNames
  | binary _ left right => left.openNames ++ right.openNames
  | call _ args => openNamesIn args
  | number _ => []
  | text _ => []
  | boolean _ => []
  | error _ => []
  | reference _ => []

def openNamesIn : List Expr → List String
  | [] => []
  | e :: rest => e.openNames ++ openNamesIn rest

end

mutual

-- The tree with other trees in the place of names.
def replace (tree? : String → Option Expr) : Expr → Expr
  | name s => (tree? s).getD (.name s)
  | negate operand => .negate (operand.replace tree?)
  | binary op left right => .binary op (left.replace tree?) (right.replace tree?)
  | call function args => .call function (replaceIn tree? args)
  | number n => .number n
  | text s => .text s
  | boolean b => .boolean b
  | error e => .error e
  | reference r => .reference r

def replaceIn (tree? : String → Option Expr) : List Expr → List Expr
  | [] => []
  | e :: rest => e.replace tree? :: replaceIn tree? rest

end

mutual

-- The same where a text may be no formula; the first such name from the left is the failure.
def resolve (meaning : Meaning) : Expr → Except ParseError Expr
  | name s =>
    match meaning s with
    | some (.ok e) => .ok e
    | some (.error cause) => .error (.inName s cause)
    | none => .ok (.name s)
  | negate operand => do return .negate (← operand.resolve meaning)
  | binary op left right => do
    let left ← left.resolve meaning
    let right ← right.resolve meaning
    return .binary op left right
  | call function args => do return .call function (← resolveAll meaning args)
  | number n => .ok (.number n)
  | text s => .ok (.text s)
  | boolean b => .ok (.boolean b)
  | error e => .ok (.error e)
  | reference r => .ok (.reference r)

def resolveAll (meaning : Meaning) : List Expr → Except ParseError (List Expr)
  | [] => .ok []
  | e :: rest => do
    let first ← e.resolve meaning
    let later ← resolveAll meaning rest
    return first :: later

end

end Expr

theorem except_bind_ok {α β : Type} (first : Except ParseError α) (next : α → Except ParseError β)
    (b : β) : first >>= next = .ok b ↔ ∃ a, first = .ok a ∧ next a = .ok b := by
  cases first with
  | ok a => simp [bind, Except.bind]
  | error e => simp [bind, Except.bind]

namespace Expr

section Resolve

variable (meaning : Meaning)

-- The tree that a name stands for, where its text is a formula.
def treeOf (name : String) : Option Expr := (meaning name).bind Except.toOption

-- Every one of the names that is defined stands for a tree.
def Readable (names : List String) : Prop :=
  ∀ name ∈ names, ∀ result, meaning name = some result → ∃ tree, result = .ok tree

theorem readable_append (first second : List String) :
    Readable meaning (first ++ second) ↔ Readable meaning first ∧ Readable meaning second := by
  simp only [Readable, List.mem_append, or_imp, forall_and]

theorem resolve_name_ok_iff (s : String) (d : Expr) :
    (name s).resolve meaning = .ok d ↔
      Readable meaning [s] ∧ d = (name s).replace (treeOf meaning) := by
  simp only [resolve, replace, treeOf, Readable, List.mem_singleton, forall_eq]
  cases meaning s with
  | none => simp [eq_comm]
  | some result =>
    cases result with
    | ok tree => simp [Except.toOption, eq_comm]
    | error cause => simp

mutual

theorem resolve_ok_iff (e d : Expr) :
    e.resolve meaning = .ok d ↔
      Readable meaning e.openNames ∧ d = e.replace (treeOf meaning) := by
  cases e with
  | name s => exact resolve_name_ok_iff meaning s d
  | negate operand =>
    simp only [resolve, except_bind_ok, resolve_ok_iff operand, openNames, replace]
    constructor
    · rintro ⟨_, ⟨readable, rfl⟩, ⟨⟩⟩
      exact ⟨readable, rfl⟩
    · rintro ⟨readable, rfl⟩
      exact ⟨_, ⟨readable, rfl⟩, rfl⟩
  | binary op left right =>
    simp only [resolve, except_bind_ok, resolve_ok_iff left, resolve_ok_iff right, openNames,
      replace, readable_append]
    constructor
    · rintro ⟨_, ⟨first, rfl⟩, _, ⟨second, rfl⟩, ⟨⟩⟩
      exact ⟨⟨first, second⟩, rfl⟩
    · rintro ⟨⟨first, second⟩, rfl⟩
      exact ⟨_, ⟨first, rfl⟩, _, ⟨second, rfl⟩, rfl⟩
  | call function args =>
    simp only [resolve, except_bind_ok, resolve_all_ok_iff args, openNames, replace]
    constructor
    · rintro ⟨_, ⟨readable, rfl⟩, ⟨⟩⟩
      exact ⟨readable, rfl⟩
    · rintro ⟨readable, rfl⟩
      exact ⟨_, ⟨readable, rfl⟩, rfl⟩
  | _ => simp [resolve, openNames, replace, Readable, eq_comm]

theorem resolve_all_ok_iff (args all : List Expr) :
    resolveAll meaning args = .ok all ↔
      Readable meaning (openNamesIn args) ∧ all = replaceIn (treeOf meaning) args := by
  cases args with
  | nil => simp [resolveAll, openNamesIn, replaceIn, Readable, eq_comm]
  | cons e rest =>
    simp only [resolveAll, except_bind_ok, resolve_ok_iff e, resolve_all_ok_iff rest, openNamesIn,
      replaceIn, readable_append]
    constructor
    · rintro ⟨_, ⟨first, rfl⟩, _, ⟨later, rfl⟩, ⟨⟩⟩
      exact ⟨⟨first, later⟩, rfl⟩
    · rintro ⟨⟨first, later⟩, rfl⟩
      exact ⟨_, ⟨first, rfl⟩, _, ⟨later, rfl⟩, rfl⟩

end

end Resolve

mutual

-- Whether two trees are the same; numbers are compared bit by bit.
def same : Expr → Expr → Bool
  | number m, number n => m = n
  | text s, text t => s = t
  | boolean b, boolean c => b = c
  | error e, error f => e = f
  | reference r, reference q => r = q
  | name s, name t => s = t
  | negate a, negate b => a.same b
  | binary op a b, binary other c d => op = other && a.same c && b.same d
  | call f args, call g others => f = g && sameAll args others
  | _, _ => false

def sameAll : List Expr → List Expr → Bool
  | [], [] => true
  | a :: rest, b :: others => a.same b && sameAll rest others
  | _, _ => false

end

mutual

theorem eq_of_same (a b : Expr) (alike : a.same b = true) : a = b := by
  cases a <;> cases b <;>
    simp only [same, decide_eq_true_eq, Bool.and_eq_true, Bool.false_eq_true] at alike
  case negate.negate x y => rw [eq_of_same x y alike]
  case binary.binary op x y other z w =>
    rw [alike.1.1, eq_of_same x z alike.1.2, eq_of_same y w alike.2]
  case call.call f args g others => rw [alike.1, eq_of_same_all args others alike.2]
  all_goals rw [alike]

theorem eq_of_same_all (a b : List Expr) (alike : sameAll a b = true) : a = b := by
  cases a <;> cases b <;> simp only [sameAll, Bool.and_eq_true, Bool.false_eq_true] at alike
  case nil.nil => rfl
  case cons.cons x xs y ys => rw [eq_of_same x y alike.1, eq_of_same_all xs ys alike.2]

end

theorem read_of_same (result : Except ParseError Expr) (e : Expr)
    (alike : result.toOption.any (·.same e) = true) : result = .ok e := by
  cases result with
  | ok d => exact congrArg _ (eq_of_same d e alike)
  | error cause => cases alike

end Expr

end Spreadsheet.Formula
