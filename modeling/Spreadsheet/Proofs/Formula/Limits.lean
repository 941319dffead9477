import Spreadsheet.Proofs.Formula.DefinedNames
import Spreadsheet.Proofs.Formula.Size

-- The limit on operators and calls. The parser counts one for each that it reads and stops beyond
-- the limit, so what a formula has of its own stays within it. The tree that stands for a name was
-- counted for itself, and not again where it is put in.

set_option autoImplicit false

namespace Spreadsheet.Formula

open Spreadsheet.Formula.Parser Spreadsheet.Formula.Expr

section Counts

variable {α β : Type} (given : String → Prop)

-- The names still to read are among the given ones, and the count is within the limit.
structure Fit (s : ParserState) : Prop where
  names : ∀ name, Token.identifier name ∈ s.tokens.list → given name
  few : s.nodes ≤ maxNodes

-- A parser whose result `weighs` as many operators and calls as it has counted.
def Counts (weighs : α → Nat → Prop) (p : Parser α) : Prop :=
  ∀ s a t, p.run s = .ok (a, t) → Fit given s →
    Fit given t ∧ ∃ n, t.nodes = s.nodes + n ∧ weighs a n

theorem counts_pure (weighs : α → Nat → Prop) (a : α) (weight : weighs a 0) :
    Counts given weighs (pure a) := by
  intro s b t ran fit
  cases ran
  exact ⟨fit, 0, rfl, weight⟩

theorem counts_throw (weighs : α → Nat → Prop) (e : ParseError) :
    Counts given weighs (throw e) := by
  intro s a t ran
  cases ran

theorem counts_bind (first : α → Nat → Prop) (last : β → Nat → Prop) (p : Parser α)
    (next : α → Parser β) (begun : Counts given first p)
    (rest : ∀ a m, first a m → Counts given (fun b n => last b (m + n)) (next a)) :
    Counts given last (p >>= next) := by
  intro s b u ran fit
  obtain ⟨a, t, one, two⟩ := run_bind_ok p next s u b ran
  obtain ⟨within, m, counted, weight⟩ := begun s a t one fit
  obtain ⟨after, n, more, whole⟩ := rest a m weight t b u two within
  exact ⟨after, m + n, by omega, whole⟩

-- A step that counts nothing and tells something of its result.
theorem counts_step (known : α → Prop) (last : β → Nat → Prop) (p : Parser α)
    (next : α → Parser β) (free : Counts given (fun a n => n = 0 ∧ known a) p)
    (rest : ∀ a, known a → Counts given last (next a)) : Counts given last (p >>= next) := by
  apply counts_bind given _ last p next free
  intro a m weight
  obtain ⟨rfl, holds⟩ := weight
  simpa only [Nat.zero_add] using rest a holds

-- What is known of a token read from given names.
def Named (token : Token) : Prop := ∀ name, token = .identifier name → given name

theorem current_counts : Counts given (fun token n => n = 0 ∧ Named given token) current := by
  intro s token t ran fit
  cases ran
  refine ⟨fit, 0, rfl, rfl, fun name same => fit.names name ?_⟩
  rw [← same]
  cases list : s.tokens.list with
  | nil => simp [list] at same
  | cons token rest => simp

theorem consume_counts : Counts given (fun token n => n = 0 ∧ Named given token) consume := by
  intro s token t ran fit
  obtain ⟨⟨list, failure?⟩, nodes⟩ := s
  match list with
  | [] =>
    cases ran
    exact ⟨fit, 0, rfl, rfl, fun name same => nomatch same⟩
  | [last] =>
    cases failure? with
    | some e => cases ran
    | none =>
      cases ran
      exact ⟨fit, 0, rfl, rfl, fun name same => fit.names name (same ▸ List.mem_cons_self)⟩
  | _ :: second :: rest =>
    cases ran
    have later (name : String) (member : .identifier name ∈ second :: rest) : given name :=
      fit.names name (List.mem_cons_of_mem _ member)
    exact ⟨⟨later, fit.few⟩, 0, rfl, rfl, fun name same =>
      fit.names name (same ▸ List.mem_cons_self)⟩

theorem add_node_counts : Counts given (fun _ n => n = 1) addNode := by
  intro s a t ran fit
  have unfolded : addNode.run s = if s.nodes < maxNodes then .ok ((), ⟨s.tokens, s.nodes + 1⟩)
      else .error .tooManyNodes := by
    change (if s.nodes < maxNodes then set (ParserState.mk s.tokens (s.nodes + 1))
      else throw .tooManyNodes : Parser Unit).run _ = _
    split <;> rfl
  rw [unfolded] at ran
  split at ran
  · rename_i room
    cases ran
    exact ⟨⟨fit.names, room⟩, 1, rfl, rfl⟩
  · cases ran

theorem skip_counts : Counts given (fun _ n => n = 0 ∧ True) (discard consume) := by
  have steps : (discard consume : Parser Unit) = consume >>= fun _ => pure () := rfl
  rw [steps]
  apply counts_step given (Named given) _ consume _ (consume_counts given)
  intro token named
  exact counts_pure given _ () ⟨rfl, trivial⟩

theorem left_paren_counts : Counts given (fun _ n => n = 0 ∧ True) leftParen := by
  apply counts_step given (Named given) _ current _ (current_counts given)
  intro token named
  cases token with
  | leftParen => exact skip_counts given
  | _ => exact counts_throw given _ _

theorem right_paren_counts : Counts given (fun _ n => n = 0 ∧ True) rightParen := by
  apply counts_step given (Named given) _ current _ (current_counts given)
  intro token named
  cases token with
  | rightParen => exact skip_counts given
  | _ => exact counts_throw given _ _

theorem signs_count (fuel : Nat) : Counts given (fun negations n => negations = n) (signs fuel) := by
  induction fuel with
  | zero => exact counts_pure given _ 0 rfl
  | succ fuel ih =>
    apply counts_step given (Named given) _ current _ (current_counts given)
    intro token named
    cases token with
    | minus =>
      apply counts_bind given _ _ addNode _ (add_node_counts given)
      rintro _ _ rfl
      apply counts_step given (fun _ => True) _ _ _ (skip_counts given)
      intro _ _
      apply counts_bind given _ _ _ _ ih
      rintro negations _ rfl
      exact counts_pure given _ _ (by omega)
    | plus =>
      apply counts_step given (fun _ => True) _ _ _ (skip_counts given)
      intro _ _
      exact ih
    | _ => exact counts_pure given _ 0 rfl

end Counts

section Grown

variable (given : String → Prop) (meaning : Meaning)

-- A tree with so many operators and calls of its own, besides those of the trees that it has in
-- the place of given names.
def Grown (e : Expr) (count : Nat) : Prop :=
  ∃ own : Expr, own.replace (treeOf meaning) = e ∧ own.nodes = count ∧
    ∀ name ∈ own.openNames, given name

def GrownAll (args : List Expr) (count : Nat) : Prop :=
  ∃ own : List Expr, replaceIn (treeOf meaning) own = args ∧ nodesIn own = count ∧
    ∀ name ∈ openNamesIn own, given name

theorem grown_negate (n count : Nat) (e : Expr) (grown : Grown given meaning e count) :
    Grown given meaning (negateTimes n e) (n + count) := by
  induction n with
  | zero =>
    rw [Nat.zero_add]
    exact grown
  | succ n ih =>
    obtain ⟨own, same, counted, names⟩ := ih
    have once : (Expr.negate own).replace (treeOf meaning) = negateTimes (n + 1) e :=
      congrArg Expr.negate same
    refine ⟨.negate own, once, ?_, names⟩
    simp only [nodes, counted]
    omega

theorem grown_binary (op : BinaryOp) (left right : Expr) (m n : Nat)
    (first : Grown given meaning left m) (second : Grown given meaning right n) :
    Grown given meaning (.binary op left right) (m + n + 1) := by
  obtain ⟨a, rfl, rfl, before⟩ := first
  obtain ⟨b, rfl, rfl, after⟩ := second
  refine ⟨.binary op a b, rfl, rfl, fun name member => ?_⟩
  cases List.mem_append.mp member with
  | inl inside => exact before name inside
  | inr inside => exact after name inside

-- A reference stands by itself or for a name, and has no operators in either case.
theorem grown_reference (r : Reference) (count : Nat)
    (grown : Grown given meaning (.reference r) count) : count = 0 := by
  obtain ⟨own, same, rfl, _⟩ := grown
  cases own with
  | negate _ => cases same
  | binary _ _ _ => cases same
  | call _ _ => cases same
  | _ => rfl

theorem grown_call (function : String) (args : List Expr) (count : Nat)
    (grown : GrownAll given meaning args count) :
    Grown given meaning (.call function args) (count + 1) := by
  obtain ⟨own, rfl, rfl, names⟩ := grown
  exact ⟨.call function own, rfl, rfl, names⟩

theorem grown_cons (e : Expr) (rest : List Expr) (m n : Nat) (first : Grown given meaning e m)
    (later : GrownAll given meaning rest n) : GrownAll given meaning (e :: rest) (m + n) := by
  obtain ⟨a, rfl, rfl, before⟩ := first
  obtain ⟨b, rfl, rfl, after⟩ := later
  refine ⟨a :: b, rfl, rfl, fun name member => ?_⟩
  cases List.mem_append.mp member with
  | inl inside => exact before name inside
  | inr inside => exact after name inside

theorem grown_nil : GrownAll given meaning [] 0 :=
  ⟨[], rfl, rfl, fun _ member => absurd member List.not_mem_nil⟩

end Grown

section Grammar

variable (given : String → Prop) (meaning : Meaning)

abbrev CountsTree (p : Parser Expr) : Prop := Counts given (Grown given meaning) p

theorem leaf_counts (e : Expr) (leaf : e.nodes = 0) (fixed : e.replace (treeOf meaning) = e)
    (closed : e.openNames = []) : CountsTree given meaning (pure e) := by
  have none (name : String) (member : name ∈ e.openNames) : given name := by
    rw [closed] at member
    exact absurd member List.not_mem_nil
  exact counts_pure given _ e ⟨e, fixed, leaf, none⟩

theorem chain_counts (op? : Token → Option BinaryOp) (operand : Parser Expr)
    (read : CountsTree given meaning operand) (fuel : Nat) (left : Expr) (m : Nat)
    (grown : Grown given meaning left m) :
    Counts given (fun e n => Grown given meaning e (m + n)) (chain op? operand fuel left) := by
  induction fuel generalizing left m with
  | zero => exact counts_pure given _ left grown
  | succ fuel ih =>
    apply counts_step given (Named given) _ current _ (current_counts given)
    intro token named
    cases op? token with
    | none => exact counts_pure given _ left grown
    | some op =>
      apply counts_step given (fun _ => True) _ _ _ (skip_counts given)
      intro _ _
      apply counts_bind given _ _ addNode _ (add_node_counts given)
      rintro _ _ rfl
      apply counts_bind given _ _ operand _ read
      intro right k more
      have whole := ih _ _ (grown_binary given meaning op left right m k grown more)
      have same (n : Nat) : m + (1 + (k + n)) = m + k + 1 + n := by omega
      simpa only [same] using whole

theorem binary_counts (levels : List (Token → Option BinaryOp)) (operand : Parser Expr)
    (read : CountsTree given meaning operand) :
    CountsTree given meaning (Parser.binary levels operand) := by
  induction levels with
  | nil => exact read
  | cons op? tighter ih =>
    apply counts_bind given _ _ _ _ ih
    intro left m grown
    exact chain_counts given meaning op? _ ih _ left m grown

theorem between_counts (left right : Expr) (m n : Nat) (first : Grown given meaning left m)
    (second : Grown given meaning right n) :
    Counts given (fun e k => Grown given meaning e (m + (n + k))) (between left right) := by
  have joined (r : Reference) (none : m = 0) (neither : n = 0) :
      Counts given (fun e k => Grown given meaning e (m + (n + k))) (pure (.reference r)) := by
    subst none neither
    simpa only [Nat.zero_add] using leaf_counts given meaning (.reference r) rfl rfl rfl
  unfold between
  split
  · have none := grown_reference given meaning _ m first
    have neither := grown_reference given meaning _ n second
    split
    · split
      · exact joined _ none neither
      · exact counts_throw given _ _
    · exact joined _ none neither
  · exact counts_throw given _ _

theorem range_counts (operand : Parser Expr) (read : CountsTree given meaning operand) :
    CountsTree given meaning (rangeOf operand) := by
  rw [range_of_eq]
  apply counts_bind given _ _ operand _ read
  intro left m first
  apply counts_step given (Named given) _ current _ (current_counts given)
  intro token named
  cases token with
  | colon =>
    apply counts_step given (fun _ => True) _ _ _ (skip_counts given)
    intro _ _
    apply counts_bind given _ _ operand _ read
    intro right n second
    exact between_counts given meaning left right m n first second
  | _ => exact counts_pure given _ left first

theorem signed_counts (operand : Parser Expr) (read : CountsTree given meaning operand) :
    CountsTree given meaning (signed operand) := by
  apply counts_bind given _ _ _ _ (signs_count given _)
  rintro negations _ rfl
  apply counts_bind given _ _ _ _ (range_counts given meaning operand read)
  intro e count grown
  exact counts_pure given _ _ (grown_negate given meaning negations count e grown)

theorem some_arguments_count (operand : Parser Expr) (later : Parser (List Expr))
    (read : CountsTree given meaning operand) (rest : Counts given (GrownAll given meaning) later) :
    Counts given (GrownAll given meaning) (do
      let first ← operand
      return first :: (← later)) := by
  apply counts_bind given _ _ operand _ read
  intro first m grown
  apply counts_bind given _ _ later _ rest
  intro more n all
  exact counts_pure given _ _ (grown_cons given meaning first more m n grown all)

theorem more_arguments_count (operand : Parser Expr) (read : CountsTree given meaning operand)
    (fuel : Nat) : Counts given (GrownAll given meaning) (moreArguments operand fuel) := by
  induction fuel with
  | zero => exact counts_pure given _ [] (grown_nil given meaning)
  | succ fuel ih =>
    apply counts_step given (Named given) _ current _ (current_counts given)
    intro token named
    cases token with
    | separator =>
      apply counts_step given (fun _ => True) _ _ _ (skip_counts given)
      intro _ _
      exact some_arguments_count given meaning operand _ read ih
    | _ => exact counts_pure given _ [] (grown_nil given meaning)

theorem arguments_count (operand : Parser Expr) (read : CountsTree given meaning operand) :
    Counts given (GrownAll given meaning) (arguments operand) := by
  have more := more_arguments_count given meaning operand read (maxLength + 1)
  apply counts_step given (Named given) _ current _ (current_counts given)
  intro token named
  cases token with
  | rightParen => exact counts_pure given _ [] (grown_nil given meaning)
  | _ => exact some_arguments_count given meaning operand _ read more

theorem call_counts (argument? : Option (Parser Expr)) (function : String)
    (read : ∀ argument ∈ argument?, CountsTree given meaning argument) :
    CountsTree given meaning (callOf argument? function) := by
  apply counts_step given (fun _ => True) _ _ _ (left_paren_counts given)
  intro _ _
  apply counts_bind given _ _ addNode _ (add_node_counts given)
  rintro _ _ rfl
  cases argument? with
  | none => exact counts_throw given _ _
  | some argument =>
    apply counts_bind given _ _ _ _ (arguments_count given meaning argument (read argument rfl))
    intro args count grown
    apply counts_step given (fun _ => True) _ _ _ (right_paren_counts given)
    intro _ _
    have called := grown_call given meaning (Text.upper function) args count grown
    apply counts_pure given
    rwa [Nat.add_zero, Nat.add_comm]

-- The tree that stands for a name weighs nothing where the name is read.
theorem name_counts (name : String) (listed : given name) :
    CountsTree given meaning
      (match meaning name with
        | some (.ok e) => pure e
        | some (.error cause) => throw (.inName name cause)
        | none => pure (.name name)) := by
  have inPlace (e : Expr) (stands : (Expr.name name).replace (treeOf meaning) = e) :
      CountsTree given meaning (pure e) := by
    have only (other : String) (member : other ∈ (Expr.name name).openNames) : given other := by
      rw [List.mem_singleton.mp member]
      exact listed
    exact counts_pure given _ e ⟨.name name, stands, rfl, only⟩
  cases stands : meaning name with
  | none =>
    apply inPlace
    simp only [replace, treeOf, stands]
    rfl
  | some result =>
    cases result with
    | ok e =>
      apply inPlace
      simp only [replace, treeOf, stands]
      rfl
    | error cause => exact counts_throw given _ _

theorem primary_counts (inner : Parser Expr) (argument? : Option (Parser Expr))
    (nested : CountsTree given meaning inner)
    (read : ∀ argument ∈ argument?, CountsTree given meaning argument) :
    CountsTree given meaning (primary meaning inner argument?) := by
  apply counts_step given (Named given) _ consume _ (consume_counts given)
  intro token named
  cases token with
  | number n => exact leaf_counts given meaning _ rfl rfl rfl
  | text s => exact leaf_counts given meaning _ rfl rfl rfl
  | boolean b => exact leaf_counts given meaning _ rfl rfl rfl
  | error e => exact leaf_counts given meaning _ rfl rfl rfl
  | cell a => exact leaf_counts given meaning _ rfl rfl rfl
  | sheet sheet =>
    apply counts_step given (Named given) _ consume _ (consume_counts given)
    intro token _
    cases token with
    | cell a => exact leaf_counts given meaning _ rfl rfl rfl
    | _ => exact counts_throw given _ _
  | leftParen =>
    apply counts_bind given _ _ inner _ nested
    intro e count grown
    apply counts_step given (fun _ => True) _ _ _ (right_paren_counts given)
    intro _ _
    exact counts_pure given _ e grown
  | identifier name =>
    apply counts_step given (Named given) _ current _ (current_counts given)
    intro token _
    cases token with
    | leftParen => exact call_counts given meaning argument? name read
    | _ => exact name_counts given meaning name (named name rfl)
  | _ => exact counts_throw given _ _

theorem expression_counts (room : Nat) : CountsTree given meaning (expression meaning room) := by
  have level (inner : Parser Expr) (argument? : Option (Parser Expr))
      (nested : CountsTree given meaning inner)
      (read : ∀ argument ∈ argument?, CountsTree given meaning argument) :=
    binary_counts given meaning levels _ (signed_counts given meaning _
      (primary_counts given meaning inner argument? nested read))
  induction room using Nat.strongRecOn with
  | _ room ih =>
    match room with
    | 0 => exact counts_throw given _ _
    | 1 => exact level _ none (counts_throw given _ _) (by simp)
    | room + 2 =>
      apply level
      · exact ih (room + 1) (by omega)
      · rintro _ ⟨⟩
        exact ih room (by omega)

theorem parse_tokens_counts (tokens : Tokens) (e : Expr)
    (read : parseTokens meaning tokens = .ok e) :
    ∃ count, count ≤ maxNodes ∧
      Grown (fun name => .identifier name ∈ tokens.list) meaning e count := by
  unfold parseTokens at read
  split at read
  · cases read
  · cases ran : (expression meaning maxDepth).run ⟨tokens, 0⟩ with
    | error cause =>
      rw [ran] at read
      cases read
    | ok pair =>
      obtain ⟨tree, s⟩ := pair
      have start : Fit (fun name => .identifier name ∈ tokens.list) ⟨tokens, 0⟩ :=
        ⟨fun name member => member, Nat.zero_le _⟩
      obtain ⟨fit, count, counted, grown⟩ :=
        expression_counts _ meaning maxDepth ⟨tokens, 0⟩ tree s ran start
      have few := fit.few
      rw [counted, Nat.zero_add] at few
      simp only [ran, bind, Except.bind] at read
      cases last : s.tokens.list.headD .eof with
      | eof =>
        simp only [last] at read
        cases read
        exact ⟨count, few, grown⟩
      | _ =>
        simp only [last] at read
        cases read

end Grammar

-- The names that stand in the text of a formula.
def Mentions (text name : String) : Prop := Token.identifier name ∈ (tokenize (body text)).list

theorem parse_body_counts (meaning : Meaning) (text : String) (e : Expr)
    (read : parseBody meaning (body text) = .ok e) :
    ∃ count, count ≤ maxNodes ∧ Grown (Mentions text) meaning e count := by
  unfold parseBody at read
  split at read
  · cases read
  · split at read
    · cases read
    · exact parse_tokens_counts meaning (tokenize (body text)) e read

theorem parse_nodes (text : String) (e : Expr) (read : parse text = .ok e) :
    e.nodes ≤ maxNodes := by
  obtain ⟨count, few, own, rfl, counted, _⟩ := parse_body_counts _ text e read
  have nothing := nodes_of_plain (treeOf fun _ => none) own.openNames fun _ _ _ absent =>
    nomatch absent
  rw [nodes_replace, nothing, counted]
  exact few

-- The tree that a name stands for, where its text is a formula.
def Names.tree? (names : Names) (name : String) : Option Expr :=
  (names.get? name).bind fun source => (parse source).toOption

theorem tree_nodes (names : Names) (name : String) (tree : Expr)
    (stands : names.tree? name = some tree) : tree.nodes ≤ maxNodes := by
  obtain ⟨source, _, parsed⟩ := Option.bind_eq_some_iff.mp stands
  cases read : parse source with
  | error cause =>
    rw [read] at parsed
    cases parsed
  | ok e =>
    rw [read] at parsed
    cases parsed
    exact parse_nodes source tree read

-- What bounds a tree that was read from a text with names.
structure Limited (names : Names) (text : String) (d : Expr) : Prop where
  -- The text has no more of its own than the limit; the rest comes from names in it.
  own : ∃ own : Expr, d = own.replace names.tree? ∧ own.nodes ≤ maxNodes ∧
    (∀ name ∈ own.openNames, Mentions text name) ∧
      d.nodes = own.nodes + nodesOf names.tree? own.openNames
  -- Where names stand for no operators and calls, the limit is that of the tree.
  whole : (∀ name, Mentions text name → ∀ tree, names.tree? name = some tree → tree.nodes = 0) →
    d.nodes ≤ maxNodes ∧ ∀ home beyond, d.evaluateWithin home beyond maxNodes = d.evaluate home
  twice : ∀ home beyond, d.evaluateWithin home beyond (2 * maxNodes) = d.evaluate home

theorem parsed_tree_limited (names : Names) (text : String) (d : Expr)
    (read : parseWith names text = .ok d) : Limited names text d := by
  let meaning : Meaning := fun name => (names.get? name).map parse
  have trees : treeOf meaning = names.tree? := by
    funext name
    simp only [treeOf, meaning, Names.tree?]
    cases names.get? name <;> rfl
  obtain ⟨count, few, own, same, rfl, mentioned⟩ := parse_body_counts meaning text d read
  rw [trees] at same
  have size := nodes_replace names.tree? own
  rw [same] at size
  have depth : d.levels ≤ own.levels + maxNodes := by
    rw [← same]
    apply levels_replace
    intro name tree stands
    exact Nat.le_trans (levels_le_nodes tree) (tree_nodes names name tree stands)
  refine ⟨⟨own, same.symm, few, mentioned, size⟩, fun plain => ?_, fun home beyond => ?_⟩
  · have nothing := nodes_of_plain names.tree? own.openNames fun name member =>
      plain name (mentioned name member)
    have bounded : d.nodes ≤ maxNodes := by omega
    refine ⟨bounded, fun home beyond => ?_⟩
    exact evaluate_within home beyond d maxNodes (Nat.le_trans (levels_le_nodes d) bounded)
  · apply evaluate_within
    have inner := levels_le_nodes own
    omega

-- A name that stands for a quotient, between a sign and a sum.
theorem parsed_tree_limited_with_name :
    let names := Names.empty.insertAll [("Rate", "A1/A2")]
    let cell (row col : Nat) : Expr := .reference ⟨none, .cell ⟨row, col⟩⟩
    let d : Expr := .binary .add (.negate (.binary .divide (cell 1 1) (cell 2 1))) (cell 2 2)
    parseWith names "=-RATE+B2" = .ok d ∧ Limited names "=-RATE+B2" d := by
  intro names cell d
  have read : parseWith names "=-RATE+B2" = .ok d := by
    apply read_of_same
    decide +kernel
  exact ⟨read, parsed_tree_limited names "=-RATE+B2" d read⟩

section Signs

variable (home : SheetId) (a : Address)

theorem nodes_negate_times (n : Nat) (e : Expr) : (negateTimes n e).nodes = e.nodes + n := by
  induction n with
  | zero => rfl
  | succ n ih => exact congrArg (· + 1) ih

theorem signs_cut (v : Value) (e : Expr) (n : Nat) :
    ∃ w, (negateTimes (n + 1) e).evaluateWithin home (.done v) n = .done w := by
  induction n with
  | zero => exact ⟨v, rfl⟩
  | succ n ih =>
    obtain ⟨w, inner⟩ := ih
    refine ⟨negated w, ?_⟩
    change (negated <$> (negateTimes (n + 1) e).evaluateWithin home (.done v) n) = _
    rw [inner]
    rfl

theorem signs_ask (n : Nat) :
    ∃ next, (negateTimes n (.reference ⟨none, .cell a⟩)).evaluate home =
      .ask (.cell ⟨home, a⟩) next := by
  induction n with
  | zero => exact ⟨_, rfl⟩
  | succ n ih =>
    obtain ⟨next, inner⟩ := ih
    refine ⟨fun answer => negated <$> next answer, ?_⟩
    change (negated <$> (negateTimes n (.reference ⟨none, .cell a⟩)).evaluate home) = _
    rw [inner]
    rfl

-- Signs before a cell need as much room as there are signs.
theorem signs_need_room (n : Nat) (d : Expr)
    (signs : d = negateTimes (n + 1) (.reference ⟨none, .cell a⟩)) :
    d.evaluateWithin home (.done .empty) n ≠ d.evaluate home := by
  obtain ⟨w, cut⟩ := signs_cut home .empty (.reference ⟨none, .cell a⟩) n
  obtain ⟨next, asks⟩ := signs_ask home a (n + 1)
  rw [signs, cut, asks]
  exact fun same => nomatch same

end Signs

theorem body_of_solid (cs : List Char) (trimmed : Text.trimChars ('=' :: cs) = '=' :: cs) :
    body (String.ofList ('=' :: cs)) = cs := by
  rw [body, String.toList_ofList, trimmed]
  rfl

-- As many signs as the limit allows, before a name that stands for one more.
theorem signs_beyond_limit :
    let names := Names.empty.insertAll [("n", "-A1")]
    let text := String.ofList ('=' :: (List.replicate maxNodes '-' ++ ['n']))
    ∃ d, parseWith names text = .ok d ∧ d.nodes = maxNodes + 1 ∧
      ∃ home beyond, d.evaluateWithin home beyond maxNodes ≠ d.evaluate home := by
  intro names text
  have inside : body text = List.replicate maxNodes '-' ++ ['n'] := by
    apply body_of_solid
    decide +kernel
  have read : (parseWith names text).toOption.any
      (·.same (negateTimes (maxNodes + 1) (.reference ⟨none, .cell ⟨1, 1⟩⟩))) = true := by
    rw [parseWith, inside]
    decide +kernel
  refine ⟨_, read_of_same _ _ read, ?_, ⟨1⟩, .done .empty, ?_⟩
  · exact (nodes_negate_times _ _).trans (Nat.zero_add _)
  · exact signs_need_room ⟨1⟩ ⟨1, 1⟩ maxNodes _ rfl

end Spreadsheet.Formula
