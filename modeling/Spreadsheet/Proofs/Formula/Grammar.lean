import Spreadsheet.Formula.Parser
import Spreadsheet.Proofs.Formula.Written

-- What the grammar makes of tokens. An expression is read level by level; at each level the
-- operators of its left edge are met one after the other, so what is said of a level is how far
-- its chain has come.

set_option autoImplicit false

namespace Spreadsheet.Formula

open Spreadsheet.Formula.Parser

-- After tokens with so many operators and calls, a parser goes on as another one.
def Advances {α : Type} (m : Parser α) (before : List Token) (count : Nat) (next : Parser α)
    (after : List Token) : Prop :=
  ∀ nodes, nodes + count ≤ maxNodes →
    m.run ⟨⟨before, none⟩, nodes⟩ = next.run ⟨⟨after, none⟩, nodes + count⟩

section Steps

variable {α β : Type}

theorem advances_trans (first second third : Parser α) (a b c : List Token) (m n : Nat)
    (one : Advances first a m second b) (two : Advances second b n third c) :
    Advances first a (m + n) third c := by
  intro nodes few
  rw [one nodes (by omega), two (nodes + m) (by omega), Nat.add_assoc]

theorem advances_bind (m : Parser α) (f : α → Parser β) (a : α) (before after : List Token)
    (count : Nat) (reads : Advances m before count (pure a) after) :
    Advances (m >>= f) before count (f a) after := by
  intro nodes few
  rw [StateT.run_bind, reads nodes few]
  rfl

theorem advances_current (f : Token → Parser α) (t : Token) (rest : List Token) :
    Advances (current >>= f) (t :: rest) 0 (f t) (t :: rest) := fun _ _ => rfl

theorem advances_consume (f : Token → Parser α) (t : Token) (rest : List Token)
    (more : rest ≠ []) : Advances (consume >>= f) (t :: rest) 0 (f t) rest := by
  obtain ⟨u, later, rfl⟩ := List.exists_cons_of_ne_nil more
  exact fun _ _ => rfl

theorem advances_skip (f : Unit → Parser α) (t : Token) (rest : List Token) (more : rest ≠ []) :
    Advances (discard consume >>= f) (t :: rest) 0 (f ()) rest := by
  obtain ⟨u, later, rfl⟩ := List.exists_cons_of_ne_nil more
  exact fun _ _ => rfl

theorem advances_add_node (f : Unit → Parser α) (tokens : List Token) :
    Advances (addNode >>= f) tokens 1 (f ()) tokens := by
  intro nodes few
  have room : nodes < maxNodes := by omega
  have counted : addNode.run ⟨⟨tokens, none⟩, nodes⟩ = .ok ((), ⟨⟨tokens, none⟩, nodes + 1⟩) := by
    change (if nodes < maxNodes then set (ParserState.mk ⟨tokens, none⟩ (nodes + 1))
      else throw .tooManyNodes : Parser Unit).run _ = _
    rw [if_pos room]
    rfl
  rw [StateT.run_bind, counted]
  rfl

end Steps

-- How tightly a token holds what stands before it, one more than the level of an operator.
def Token.grip : Token → Nat
  | .equal => 1
  | .notEqual => 1
  | .less => 1
  | .lessEqual => 1
  | .greater => 1
  | .greaterEqual => 1
  | .ampersand => 2
  | .plus => 3
  | .minus => 3
  | .star => 4
  | .slash => 4
  | .colon => 6
  | .leftParen => 6
  | _ => 0

def operatorAt (level : Nat) (t : Token) : Option BinaryOp :=
  match levels[level]? with
  | some op? => op? t
  | none => none

theorem grip_token (op : BinaryOp) : op.token.grip = op.level + 1 := by cases op <;> rfl

theorem operator_at_level (op : BinaryOp) : operatorAt op.level op.token = some op := by
  cases op <;> rfl

theorem operator_at_none (level : Nat) (small : level < 4) (t : Token) (loose : t.grip ≤ level) :
    operatorAt level t = none := by
  match level, small with
  | 0, _ => cases t <;> first | rfl | simp [Token.grip] at loose
  | 1, _ => cases t <;> first | rfl | simp [Token.grip] at loose
  | 2, _ => cases t <;> first | rfl | simp [Token.grip] at loose
  | 3, _ => cases t <;> first | rfl | simp [Token.grip] at loose

theorem levels_drop (level : Nat) (small : level < 4) :
    levels.drop level = operatorAt level :: levels.drop (level + 1) := by
  match level, small with
  | 0, _ => rfl
  | 1, _ => rfl
  | 2, _ => rfl
  | 3, _ => rfl

section Grammar

variable (substitute : String → Option (Except ParseError Expr)) (room : Nat)

-- The reader of arguments, where there may be so many parentheses around one another.
def argumentAt : Nat → Option (Parser Expr)
  | 0 => none
  | room + 1 => some (expression substitute room)

def operandAt : Parser Expr :=
  primary substitute (expression substitute room) (argumentAt substitute room)

def layer (level : Nat) : Parser Expr :=
  binary (levels.drop level) (signed (operandAt substitute room))

theorem expression_layer : expression substitute (room + 1) = layer substitute room 0 := by
  cases room <;> rfl

theorem layer_step (level : Nat) (small : level < 4) : layer substitute room level =
    (layer substitute room (level + 1) >>= fun left =>
      chain (operatorAt level) (layer substitute room (level + 1)) (maxNodes + 1) left) := by
  rw [layer, levels_drop level small]
  rfl

variable (tokens : List Token) (count : Nat) (e : Expr)

-- The tokens are read as the expression by the reader of a level.
def Stands (level : Nat) : Prop := ∀ (t : Token) (rest : List Token), t.grip ≤ level →
  Advances (layer substitute room level) (tokens ++ t :: rest) count (pure e) (t :: rest)

-- The chain of a level has come to the end of the tokens.
def Chained (level : Nat) : Prop := ∀ (t : Token) (rest : List Token) (fuel : Nat),
  t.grip ≤ level + 1 → count ≤ fuel → ∃ left, fuel ≤ left + count ∧
    Advances (layer substitute room (level + 1) >>= fun first =>
      chain (operatorAt level) (layer substitute room (level + 1)) fuel first)
      (tokens ++ t :: rest) count
      (chain (operatorAt level) (layer substitute room (level + 1)) left e) (t :: rest)

-- The tokens are read as signs before an operand, whatever signs stand before them.
def Signed : Prop := ∀ (t : Token) (rest : List Token) (fuel : Nat) (outer : Expr → Expr),
  t.grip ≤ 4 → count < fuel →
    Advances (do
      let negations ← signs fuel
      return outer (negateTimes negations (← rangeOf (operandAt substitute room))))
      (tokens ++ t :: rest) count (pure (outer e)) (t :: rest)

-- The tokens are read as the expression at its level and at every looser one.
structure Reads (level : Nat) : Prop where
  chained : ∀ l ≤ level, l < 4 → Chained substitute room tokens count e l
  signed : 4 ≤ level → Signed substitute room tokens count e

variable (few : count ≤ maxNodes)

theorem chain_stops (op? : Token → Option BinaryOp) (right : Parser Expr) (fuel : Nat)
    (t : Token) (rest : List Token) (none : op? t = none) :
    Advances (chain op? right fuel e) (t :: rest) 0 (pure e) (t :: rest) := by
  cases fuel with
  | zero => exact fun _ _ => rfl
  | succ fuel =>
    refine advances_trans _ _ _ _ _ _ 0 0 (advances_current _ t rest) ?_
    rw [none]
    exact fun _ _ => rfl

theorem chain_goes_on (op? : Token → Option BinaryOp) (right : Parser Expr) (fuel : Nat)
    (t : Token) (rest : List Token) (more : rest ≠ []) (op : BinaryOp) (found : op? t = some op) :
    Advances (chain op? right (fuel + 1) e) (t :: rest) 1
      (right >>= fun other => chain op? right fuel (.binary op e other)) rest := by
  refine advances_trans _ _ _ _ _ _ 0 1 (advances_current _ t rest) ?_
  rw [found]
  exact advances_trans _ _ _ _ _ _ 0 1 (advances_skip _ t rest more) (advances_add_node _ rest)

theorem chained_of_stands (level : Nat)
    (stands : Stands substitute room tokens count e (level + 1)) :
    Chained substitute room tokens count e level := fun t rest fuel loose _ =>
  ⟨fuel, Nat.le_add_right fuel count, advances_bind _ _ e _ _ count (stands t rest loose)⟩

include few in
theorem stands_of_chained (level : Nat) (small : level < 4)
    (chained : Chained substitute room tokens count e level) :
    Stands substitute room tokens count e level := by
  intro t rest loose
  obtain ⟨left, _, reads⟩ := chained t rest (maxNodes + 1) (by omega) (by omega)
  rw [layer_step substitute room level small]
  exact advances_trans _ _ _ _ _ _ count 0 reads
    (chain_stops e _ _ left t rest (operator_at_none level small t loose))

include few in
theorem chained_below (level : Nat) (small : level < 4)
    (chained : Chained substitute room tokens count e level) (l : Nat) (below : l ≤ level) :
    Chained substitute room tokens count e l := by
  induction level with
  | zero =>
    obtain rfl : l = 0 := by omega
    exact chained
  | succ n ih =>
    by_cases here : l = n + 1
    · exact here ▸ chained
    · refine ih (by omega) (chained_of_stands substitute room tokens count e n ?_) (by omega)
      exact stands_of_chained substitute room tokens count e few (n + 1) small chained

theorem stands_of_signed (few : count ≤ maxNodes) (signed : Signed substitute room tokens count e) :
    Stands substitute room tokens count e 4 := by
  intro t rest loose
  have enough : count < maxLength + 1 := by
    have most : maxNodes < maxLength + 1 := by decide
    omega
  exact signed t rest (maxLength + 1) id loose enough

include few in
theorem reads_of_chained (level : Nat) (small : level < 4)
    (chained : Chained substitute room tokens count e level) :
    Reads substitute room tokens count e level :=
  ⟨fun l below _ => chained_below substitute room tokens count e few level small chained l below,
    fun tight => absurd small (by omega)⟩

include few in
theorem reads_of_signed (level : Nat) (signed : Signed substitute room tokens count e) :
    Reads substitute room tokens count e level := by
  have stands := stands_of_signed substitute room tokens count e few signed
  have chained := chained_of_stands substitute room tokens count e 3 stands
  exact ⟨fun l _ small => chained_below substitute room tokens count e few 3 (by decide) chained l
    (by omega), fun _ => signed⟩

include few in
theorem stands_of_reads (level l : Nat) (below : l ≤ level) (most : l ≤ 4)
    (reads : Reads substitute room tokens count e level) :
    Stands substitute room tokens count e l := by
  by_cases small : l < 4
  · exact stands_of_chained substitute room tokens count e few l small
      (reads.chained l below small)
  · obtain rfl : l = 4 := by omega
    exact stands_of_signed substitute room tokens count e few (reads.signed below)

end Grammar

section Compound

variable (substitute : String → Option (Except ParseError Expr)) (room : Nat)

-- An operator between what stands at its level and what stands at a tighter one.
theorem reads_binary (op : BinaryOp) (before after : List Token) (m n : Nat) (left right : Expr)
    (first second : Nat) (few : m + n + 1 ≤ maxNodes) (loose : op.level ≤ first)
    (tight : op.level + 1 ≤ second) (readsLeft : Reads substitute room before m left first)
    (readsRight : Reads substitute room after n right second) :
    Reads substitute room (before ++ op.token :: after) (m + n + 1) (.binary op left right)
      op.level := by
  have small : op.level < 4 := by cases op <;> decide
  refine reads_of_chained substitute room _ _ _ few op.level small fun t rest fuel next enough => ?_
  obtain ⟨reached, bound, edge⟩ := readsLeft.chained op.level loose small op.token
    (after ++ t :: rest) fuel (Nat.le_of_eq (grip_token op)) (by omega)
  obtain ⟨left', rfl⟩ : ∃ k, reached = k + 1 := ⟨reached - 1, by omega⟩
  have stands := stands_of_reads substitute room after n right (by omega) second (op.level + 1)
    tight small readsRight t rest next
  have step := chain_goes_on left (operatorAt op.level) (layer substitute room (op.level + 1)) left'
    op.token (after ++ t :: rest) (by simp) op (operator_at_level op)
  refine ⟨left', by omega, ?_⟩
  rw [List.append_assoc, List.cons_append, show m + n + 1 = m + (1 + n) by omega]
  exact advances_trans _ _ _ _ _ _ m _ edge
    (advances_trans _ _ _ _ _ _ 1 n step (advances_bind _ _ right _ _ n stands))

theorem signs_minus (fuel : Nat) (f : Nat → Parser Expr) (rest : List Token) (more : rest ≠ []) :
    Advances (signs (fuel + 1) >>= f) (.minus :: rest) 1 (signs fuel >>= fun n => f (n + 1))
      rest := by
  rw [signs, bind_assoc]
  refine advances_trans _ _ _ _ _ _ 0 1 (advances_current _ .minus rest) ?_
  simp only [bind_assoc, pure_bind]
  refine advances_trans _ _ _ _ _ _ 1 0 (advances_add_node _ (.minus :: rest)) ?_
  exact advances_skip _ .minus rest more

theorem signs_none (fuel : Nat) (f : Nat → Parser Expr) (t : Token) (rest : List Token)
    (noPlus : t ≠ .plus) (noMinus : t ≠ .minus) :
    Advances (signs (fuel + 1) >>= f) (t :: rest) 0 (f 0) (t :: rest) := by
  rw [signs, bind_assoc]
  refine advances_trans _ _ _ _ _ _ 0 0 (advances_current _ t rest) ?_
  cases t <;> first | exact absurd rfl noPlus | exact absurd rfl noMinus | exact fun _ _ => rfl

theorem reads_negate (tokens : List Token) (count : Nat) (e : Expr) (level : Nat)
    (few : count + 1 ≤ maxNodes) (tight : 4 ≤ level)
    (reads : Reads substitute room tokens count e level) :
    Reads substitute room (.minus :: tokens) (count + 1) (.negate e) 4 := by
  refine reads_of_signed substitute room _ _ _ few 4 fun t rest fuel outer next enough => ?_
  obtain ⟨fuel, rfl⟩ : ∃ k, fuel = k + 1 := ⟨fuel - 1, by omega⟩
  have inner := reads.signed tight t rest fuel (outer ∘ .negate) next (by omega)
  rw [Nat.add_comm count 1]
  refine advances_trans _ _ _ _ _ _ 1 count ?_ inner
  exact signs_minus fuel _ (tokens ++ t :: rest) (by simp)

-- What an operand is read from, for any token after it that does not hold it more tightly.
def IsOperand (tokens : List Token) (count : Nat) (e : Expr) : Prop :=
  ∀ (t : Token) (rest : List Token), t.grip ≤ 5 →
    Advances (rangeOf (operandAt substitute room)) (tokens ++ t :: rest) count (pure e) (t :: rest)

theorem reads_operand (first : Token) (tokens : List Token) (count : Nat) (e : Expr)
    (level : Nat) (few : count ≤ maxNodes) (noPlus : first ≠ .plus) (noMinus : first ≠ .minus)
    (operand : IsOperand substitute room (first :: tokens) count e) :
    Reads substitute room (first :: tokens) count e level := by
  refine reads_of_signed substitute room _ _ _ few level fun t rest fuel outer next enough => ?_
  obtain ⟨fuel, rfl⟩ : ∃ k, fuel = k + 1 := ⟨fuel - 1, by omega⟩
  rw [← Nat.zero_add count]
  refine advances_trans _ _ _ _ _ _ 0 count
    (signs_none fuel _ first (tokens ++ t :: rest) noPlus noMinus) ?_
  exact advances_bind _ _ e _ _ count (operand t rest (by omega))

theorem operand_alone (tokens : List Token) (count : Nat) (e : Expr)
    (primary : ∀ (t : Token) (rest : List Token), t.grip ≤ 5 →
      Advances (operandAt substitute room) (tokens ++ t :: rest) count (pure e) (t :: rest)) :
    IsOperand substitute room tokens count e := by
  intro t rest loose
  refine advances_trans _ _ _ _ _ _ count 0
    (advances_bind _ _ e _ _ count (primary t rest loose)) ?_
  refine advances_trans _ _ _ _ _ _ 0 0 (advances_current _ t rest) ?_
  cases t <;> first | exact fun _ _ => rfl | simp [Token.grip] at loose

theorem right_paren_closes {α : Type} (f : Unit → Parser α) (rest : List Token)
    (more : rest ≠ []) : Advances (rightParen >>= f) (.rightParen :: rest) 0 (f ()) rest := by
  rw [rightParen, bind_assoc]
  exact advances_trans _ _ _ _ _ _ 0 0 (advances_current _ .rightParen rest)
    (advances_skip _ .rightParen rest more)

theorem operand_parens (tokens : List Token) (count : Nat) (e : Expr) (level : Nat)
    (few : count ≤ maxNodes) (reads : Reads substitute room tokens count e level) :
    IsOperand substitute (room + 1) (.leftParen :: (tokens ++ [.rightParen])) count e := by
  refine operand_alone substitute (room + 1) _ count e fun t rest _ => ?_
  have inner := stands_of_reads substitute room tokens count e few level 0 (by omega) (by omega)
    reads .rightParen (t :: rest) (by decide)
  rw [← expression_layer] at inner
  rw [← Nat.zero_add count, List.cons_append, List.append_assoc, List.singleton_append]
  refine advances_trans _ _ _ _ _ _ 0 count (advances_consume _ .leftParen _ (by simp)) ?_
  exact advances_trans _ _ _ _ _ _ count 0 (advances_bind _ _ e _ _ count inner)
    (right_paren_closes _ (t :: rest) (by simp))

-- A token that is an operand by itself.
def leaf? : Token → Option Expr
  | .number n => some (.number n)
  | .text s => some (.text s)
  | .boolean b => some (.boolean b)
  | .error e => some (.error e)
  | .cell a => some (.reference ⟨none, .cell a⟩)
  | _ => none

theorem leaf_read (token : Token) (e : Expr) (leaf : leaf? token = some e) (rest : List Token)
    (more : rest ≠ []) :
    Advances (operandAt substitute room) (token :: rest) 0 (pure e) rest := by
  refine advances_trans _ _ _ _ _ _ 0 0 (advances_consume _ token rest more) ?_
  cases token <;> cases leaf <;> exact fun _ _ => rfl

theorem operand_leaf (token : Token) (e : Expr) (leaf : leaf? token = some e) :
    IsOperand substitute room [token] 0 e :=
  operand_alone substitute room _ 0 e fun t rest _ =>
    leaf_read substitute room token e leaf (t :: rest) (by simp)

theorem reads_leaf (token : Token) (e : Expr) (level : Nat) (leaf : leaf? token = some e) :
    Reads substitute room [token] 0 e level := by
  refine reads_operand substitute room token [] 0 e level (Nat.zero_le maxNodes) ?_ ?_
    (operand_leaf substitute room token e leaf)
  · rintro rfl
    cases leaf
  · rintro rfl
    cases leaf

theorem operand_name (name : String) (undefined : substitute name = none) :
    IsOperand substitute room [.identifier name] 0 (.name name) := by
  refine operand_alone substitute room _ 0 _ fun t rest loose => ?_
  have plain : t ≠ .leftParen := by
    rintro rfl
    simp [Token.grip] at loose
  refine advances_trans _ _ _ _ _ _ 0 0 (advances_consume _ (.identifier name) _ (by simp)) ?_
  refine advances_trans _ _ _ _ _ _ 0 0 (advances_current _ t rest) ?_
  rw [undefined]
  cases t <;> first | exact absurd rfl plain | exact fun _ _ => rfl

-- A cell, with the name of its sheet or without.
def cellTokens (sheet? : Option String) (a : Address) : List Token :=
  (sheet?.map Token.sheet).toList ++ [.cell a]

theorem cell_read (sheet? : Option String) (a : Address) (rest : List Token) (more : rest ≠ []) :
    Advances (operandAt substitute room) (cellTokens sheet? a ++ rest) 0
      (pure (.reference ⟨sheet?, .cell a⟩)) rest := by
  cases sheet? with
  | none => exact leaf_read substitute room (.cell a) _ rfl rest more
  | some sheet =>
    refine advances_trans _ _ _ _ _ _ 0 0 (advances_consume _ (.sheet sheet) _ (by simp)) ?_
    exact advances_trans _ _ _ _ _ _ 0 0 (advances_consume _ (.cell a) rest more) fun _ _ => rfl

theorem operand_cell (sheet? : Option String) (a : Address) :
    IsOperand substitute room (cellTokens sheet? a) 0 (.reference ⟨sheet?, .cell a⟩) :=
  operand_alone substitute room _ 0 _ fun t rest _ =>
    cell_read substitute room sheet? a (t :: rest) (by simp)

theorem operand_range (sheet? : Option String) (first last : Address) :
    IsOperand substitute room (cellTokens sheet? first ++ [.colon, .cell last]) 0
      (.reference ⟨sheet?, .range (.between first last)⟩) := by
  intro t rest _
  rw [List.append_assoc]
  refine advances_trans _ _ _ _ _ _ 0 0
    (advances_bind _ _ _ _ _ 0 (cell_read substitute room sheet? first _ (by simp))) ?_
  refine advances_trans _ _ _ _ _ _ 0 0 (advances_current _ .colon _) ?_
  refine advances_trans _ _ _ _ _ _ 0 0 (advances_skip _ .colon _ (by simp)) ?_
  refine advances_trans _ _ _ _ _ _ 0 0
    (advances_bind _ _ _ _ _ 0 (cell_read substitute room none last (t :: rest) (by simp))) ?_
  cases sheet? <;> exact fun _ _ => rfl

-- What starts with a cell starts with no sign.
theorem reads_from_cell (sheet? : Option String) (a : Address) (after : List Token) (e : Expr)
    (level : Nat) (operand : IsOperand substitute room (cellTokens sheet? a ++ after) 0 e) :
    Reads substitute room (cellTokens sheet? a ++ after) 0 e level := by
  have none (first : Token) (tokens : List Token) (noPlus : first ≠ .plus)
      (noMinus : first ≠ .minus) (operand : IsOperand substitute room (first :: tokens) 0 e) :
      Reads substitute room (first :: tokens) 0 e level :=
    reads_operand substitute room first tokens 0 e level (Nat.zero_le maxNodes) noPlus noMinus
      operand
  cases sheet? with
  | none => exact none (.cell a) after (by simp) (by simp) operand
  | some sheet => exact none (.sheet sheet) (.cell a :: after) (by simp) (by simp) operand

theorem left_paren_opens {α : Type} (f : Unit → Parser α) (rest : List Token) (more : rest ≠ []) :
    Advances (leftParen >>= f) (.leftParen :: rest) 0 (f ()) rest := by
  rw [leftParen, bind_assoc]
  exact advances_trans _ _ _ _ _ _ 0 0 (advances_current _ .leftParen rest)
    (advances_skip _ .leftParen rest more)

theorem operand_call (function : String) (upper : Text.upper function = function)
    (tokens : List Token) (count : Nat) (args : List Expr) (argument : Parser Expr)
    (given : argumentAt substitute room = some argument)
    (reads : ∀ rest, Advances (arguments argument) (tokens ++ .rightParen :: rest) count (pure args)
      (.rightParen :: rest)) :
    IsOperand substitute room (.identifier function :: .leftParen :: (tokens ++ [.rightParen]))
      (count + 1) (.call function args) := by
  refine operand_alone substitute room _ _ _ fun t rest _ => ?_
  simp only [List.cons_append, List.append_assoc, List.nil_append]
  rw [operandAt, given, Nat.add_comm count 1, ← Nat.zero_add (1 + count)]
  refine advances_trans _ _ _ _ _ _ 0 _ (advances_consume _ (.identifier function) _ (by simp)) ?_
  rw [← Nat.zero_add (1 + count)]
  refine advances_trans _ _ _ _ _ _ 0 _ (advances_current _ .leftParen _) ?_
  rw [← Nat.zero_add (1 + count)]
  refine advances_trans _ _ _ _ _ _ 0 _ (left_paren_opens _ _ (by simp)) ?_
  refine advances_trans _ _ _ _ _ _ 1 count (advances_add_node _ _) ?_
  refine advances_trans _ _ _ _ _ _ count 0
    (advances_bind _ _ args _ _ count (reads (t :: rest))) ?_
  refine advances_trans _ _ _ _ _ _ 0 0 (right_paren_closes _ (t :: rest) (by simp)) ?_
  rw [upper]
  exact fun _ _ => rfl

theorem arguments_none (argument : Parser Expr) (rest : List Token) :
    Advances (arguments argument) (.rightParen :: rest) 0 (pure []) (.rightParen :: rest) :=
  advances_trans _ _ _ _ _ _ 0 0 (advances_current _ .rightParen rest) fun _ _ => rfl

theorem arguments_some (argument : Parser Expr) (first : Token) (rest : List Token)
    (filled : first ≠ .rightParen) :
    Advances (arguments argument) (first :: rest) 0
      (do return (← argument) :: (← moreArguments argument (maxLength + 1))) (first :: rest) := by
  refine advances_trans _ _ _ _ _ _ 0 0 (advances_current _ first rest) ?_
  cases first <;> first | exact absurd rfl filled | exact fun _ _ => rfl

theorem more_arguments_none (argument : Parser Expr) (fuel : Nat) (rest : List Token) :
    Advances (moreArguments argument fuel) (.rightParen :: rest) 0 (pure [])
      (.rightParen :: rest) := by
  cases fuel with
  | zero => exact fun _ _ => rfl
  | succ fuel =>
    exact advances_trans _ _ _ _ _ _ 0 0 (advances_current _ .rightParen rest) fun _ _ => rfl

theorem argument_and_more (argument : Parser Expr) (fuel : Nat) (before after rest : List Token)
    (m n : Nat) (e : Expr) (es : List Expr)
    (one : Advances argument (before ++ after) m (pure e) after)
    (others : Advances (moreArguments argument fuel) after n (pure es) rest) :
    Advances (do return (← argument) :: (← moreArguments argument fuel)) (before ++ after) (m + n)
      (pure (e :: es)) rest :=
  advances_trans _ _ _ _ _ _ m n (advances_bind _ _ e _ _ m one)
    (advances_bind _ _ es _ _ n others)

theorem more_arguments_some (argument : Parser Expr) (fuel : Nat) (rest : List Token)
    (more : rest ≠ []) :
    Advances (moreArguments argument (fuel + 1)) (.separator :: rest) 0
      (do return (← argument) :: (← moreArguments argument fuel)) rest :=
  advances_trans _ _ _ _ _ _ 0 0 (advances_current _ .separator rest)
    (advances_skip _ .separator rest more)

end Compound

end Spreadsheet.Formula
