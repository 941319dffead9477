import Spreadsheet.Proofs.Formula.DefinedNames
import Spreadsheet.Proofs.Formula.Grammar
import Spreadsheet.Proofs.Formula.Lexemes

-- Where the parts of a parsed tree come from. Each leaf is a token of the text or the tree of a
-- name that is one, and a formula is accepted only after its last token was reached.

set_option autoImplicit false

namespace Spreadsheet.Formula

open Spreadsheet.Formula.Parser

-- The trees that the grammar makes of given tokens and of the trees that names stand for.
inductive Built (given : Token → Prop) (meaning : Meaning) : Expr → Prop where
  | leaf (token : Token) (e : Expr) (present : given token) (alone : leaf? token = some e) :
      Built given meaning e
  | sheetCell (sheet : String) (a : Address) (before : given (.sheet sheet))
      (present : given (.cell a)) : Built given meaning (.reference ⟨some sheet, .cell a⟩)
  | range (sheet? other? : Option String) (first last : Address)
      (left : Built given meaning (.reference ⟨sheet?, .cell first⟩))
      (right : Built given meaning (.reference ⟨other?, .cell last⟩))
      (alike : ∀ sheet ∈ sheet?, ∀ other ∈ other?, Text.asciiSame sheet other = true) :
      Built given meaning (.reference ⟨sheet? <|> other?, .range (.between first last)⟩)
  | name (s : String) (present : given (.identifier s)) (free : meaning s = none) :
      Built given meaning (.name s)
  | defined (s : String) (e : Expr) (present : given (.identifier s))
      (stands : meaning s = some (.ok e)) : Built given meaning e
  | negate (operand : Expr) (inside : Built given meaning operand) :
      Built given meaning (.negate operand)
  | binary (op : BinaryOp) (left right : Expr) (before : Built given meaning left)
      (after : Built given meaning right) : Built given meaning (.binary op left right)
  | call (s : String) (args : List Expr) (present : given (.identifier s))
      (each : ∀ arg ∈ args, Built given meaning arg) :
      Built given meaning (.call (Text.upper s) args)

section Makes

variable {α β : Type} (start : List Token)

-- The tokens still to read are among those of the start, and there is always a current one.
structure Left (s : ParserState) : Prop where
  filled : s.tokens.list ≠ []
  among : ∀ token ∈ s.tokens.list, token ∈ start

def Makes (post : α → Prop) (p : Parser α) : Prop :=
  ∀ s a t, p.run s = .ok (a, t) → Left start s → Left start t ∧ post a

theorem makes_pure (post : α → Prop) (a : α) (holds : post a) : Makes start post (pure a) := by
  intro s b t ran left
  cases ran
  exact ⟨left, holds⟩

theorem makes_throw (post : α → Prop) (e : ParseError) : Makes start post (throw e) := by
  intro s a t ran
  cases ran

theorem makes_bind (first : α → Prop) (last : β → Prop) (p : Parser α) (next : α → Parser β)
    (begun : Makes start first p) (rest : ∀ a, first a → Makes start last (next a)) :
    Makes start last (p >>= next) := by
  intro s b u ran left
  obtain ⟨a, t, one, two⟩ := run_bind_ok p next s u b ran
  obtain ⟨within, holds⟩ := begun s a t one left
  exact rest a holds t b u two within

theorem current_makes : Makes start (· ∈ start) current := by
  intro s token t ran left
  cases ran
  obtain ⟨first, more, list⟩ := List.exists_cons_of_ne_nil left.filled
  exact ⟨left, left.among _ (by simp [list])⟩

theorem consume_makes : Makes start (· ∈ start) consume := by
  intro s token t ran left
  obtain ⟨⟨list, failure?⟩, nodes⟩ := s
  match list with
  | [] => exact absurd rfl left.filled
  | [last] =>
    cases failure? with
    | some e => cases ran
    | none =>
      cases ran
      exact ⟨left, left.among _ List.mem_cons_self⟩
  | first :: second :: rest =>
    cases ran
    have later (token : Token) (member : token ∈ second :: rest) : token ∈ start :=
      left.among token (List.mem_cons_of_mem _ member)
    exact ⟨⟨by simp, later⟩, left.among _ List.mem_cons_self⟩

theorem add_node_makes : Makes start (fun _ => True) addNode := by
  intro s a t ran left
  have unfolded : addNode.run s = if s.nodes < maxNodes then .ok ((), ⟨s.tokens, s.nodes + 1⟩)
      else .error .tooManyNodes := by
    change (if s.nodes < maxNodes then set (ParserState.mk s.tokens (s.nodes + 1))
      else throw .tooManyNodes : Parser Unit).run _ = _
    split <;> rfl
  rw [unfolded] at ran
  split at ran
  · cases ran
    exact ⟨⟨left.filled, left.among⟩, trivial⟩
  · cases ran

theorem skip_makes : Makes start (fun _ => True) (discard consume) := by
  have steps : (discard consume : Parser Unit) = consume >>= fun _ => pure () := rfl
  rw [steps]
  apply makes_bind start _ _ consume _ (consume_makes start)
  intro token present
  exact makes_pure start _ () trivial

theorem left_paren_makes : Makes start (fun _ => True) leftParen := by
  apply makes_bind start _ _ current _ (current_makes start)
  intro token present
  cases token with
  | leftParen => exact skip_makes start
  | _ => exact makes_throw start _ _

theorem right_paren_makes : Makes start (fun _ => True) rightParen := by
  apply makes_bind start _ _ current _ (current_makes start)
  intro token present
  cases token with
  | rightParen => exact skip_makes start
  | _ => exact makes_throw start _ _

theorem signs_make (fuel : Nat) : Makes start (fun _ => True) (signs fuel) := by
  induction fuel with
  | zero => exact makes_pure start _ 0 trivial
  | succ fuel ih =>
    apply makes_bind start _ _ current _ (current_makes start)
    intro token present
    cases token with
    | minus =>
      apply makes_bind start _ _ addNode _ (add_node_makes start)
      intro _ _
      apply makes_bind start _ _ _ _ (skip_makes start)
      intro _ _
      apply makes_bind start _ _ _ _ ih
      intro negations _
      exact makes_pure start _ _ trivial
    | plus =>
      apply makes_bind start _ _ _ _ (skip_makes start)
      intro _ _
      exact ih
    | _ => exact makes_pure start _ 0 trivial

end Makes

section Grammar

variable (start : List Token) (meaning : Meaning)

abbrev MakesTree (p : Parser Expr) : Prop := Makes start (Built (· ∈ start) meaning) p

abbrev MakesTrees (p : Parser (List Expr)) : Prop :=
  Makes start (fun args => ∀ arg ∈ args, Built (· ∈ start) meaning arg) p

theorem chain_makes (op? : Token → Option BinaryOp) (operand : Parser Expr)
    (read : MakesTree start meaning operand) (fuel : Nat) (left : Expr)
    (built : Built (· ∈ start) meaning left) :
    MakesTree start meaning (chain op? operand fuel left) := by
  induction fuel generalizing left with
  | zero => exact makes_pure start _ left built
  | succ fuel ih =>
    apply makes_bind start _ _ current _ (current_makes start)
    intro token present
    cases op? token with
    | none => exact makes_pure start _ left built
    | some op =>
      apply makes_bind start _ _ _ _ (skip_makes start)
      intro _ _
      apply makes_bind start _ _ addNode _ (add_node_makes start)
      intro _ _
      apply makes_bind start _ _ operand _ read
      intro right more
      exact ih _ (.binary op left right built more)

theorem binary_makes (levels : List (Token → Option BinaryOp)) (operand : Parser Expr)
    (read : MakesTree start meaning operand) :
    MakesTree start meaning (Parser.binary levels operand) := by
  induction levels with
  | nil => exact read
  | cons op? tighter ih =>
    apply makes_bind start _ _ _ _ ih
    intro left built
    exact chain_makes start meaning op? _ ih _ left built

theorem between_makes (left right : Expr) (first : Built (· ∈ start) meaning left)
    (second : Built (· ∈ start) meaning right) : MakesTree start meaning (between left right) := by
  unfold between
  split
  · rename_i sheet? first other? last
    split
    · rename_i sheet other
      split
      · rename_i same
        have alike : ∀ a ∈ some sheet, ∀ b ∈ some other, Text.asciiSame a b = true := by
          rintro _ ⟨⟩ _ ⟨⟩
          exact same
        exact makes_pure start _ _ (.range (some sheet) (some other) _ _ first second alike)
      · exact makes_throw start _ _
    · rename_i apart
      apply makes_pure start
      apply Built.range sheet? other? _ _ first second
      intro sheet here other there
      exact absurd there (apart sheet other here)
  · exact makes_throw start _ _

theorem range_makes (operand : Parser Expr) (read : MakesTree start meaning operand) :
    MakesTree start meaning (rangeOf operand) := by
  rw [range_of_eq]
  apply makes_bind start _ _ operand _ read
  intro left first
  apply makes_bind start _ _ current _ (current_makes start)
  intro token present
  cases token with
  | colon =>
    apply makes_bind start _ _ _ _ (skip_makes start)
    intro _ _
    apply makes_bind start _ _ operand _ read
    intro right second
    exact between_makes start meaning left right first second
  | _ => exact makes_pure start _ left first

theorem built_negations (given : Token → Prop) (n : Nat) (e : Expr)
    (built : Built given meaning e) : Built given meaning (negateTimes n e) := by
  induction n with
  | zero => exact built
  | succ n ih => exact .negate _ ih

theorem signed_makes (operand : Parser Expr) (read : MakesTree start meaning operand) :
    MakesTree start meaning (signed operand) := by
  apply makes_bind start _ _ _ _ (signs_make start _)
  intro negations _
  apply makes_bind start _ _ _ _ (range_makes start meaning operand read)
  intro e built
  exact makes_pure start _ _ (built_negations meaning _ negations e built)

theorem some_arguments_make (operand : Parser Expr) (later : Parser (List Expr))
    (read : MakesTree start meaning operand) (rest : MakesTrees start meaning later) :
    MakesTrees start meaning (do
      let first ← operand
      return first :: (← later)) := by
  apply makes_bind start _ _ operand _ read
  intro first built
  apply makes_bind start _ _ later _ rest
  intro more all
  exact makes_pure start _ _ (List.forall_mem_cons.mpr ⟨built, all⟩)

theorem more_arguments_make (operand : Parser Expr) (read : MakesTree start meaning operand)
    (fuel : Nat) : MakesTrees start meaning (moreArguments operand fuel) := by
  induction fuel with
  | zero => exact makes_pure start _ [] (by simp)
  | succ fuel ih =>
    apply makes_bind start _ _ current _ (current_makes start)
    intro token present
    cases token with
    | separator =>
      apply makes_bind start _ _ _ _ (skip_makes start)
      intro _ _
      exact some_arguments_make start meaning operand _ read ih
    | _ => exact makes_pure start _ [] (by simp)

theorem arguments_make (operand : Parser Expr) (read : MakesTree start meaning operand) :
    MakesTrees start meaning (arguments operand) := by
  have more := more_arguments_make start meaning operand read (maxLength + 1)
  apply makes_bind start _ _ current _ (current_makes start)
  intro token present
  cases token with
  | rightParen => exact makes_pure start _ [] (by simp)
  | _ => exact some_arguments_make start meaning operand _ read more

theorem call_makes (argument? : Option (Parser Expr)) (function : String)
    (present : .identifier function ∈ start)
    (read : ∀ argument ∈ argument?, MakesTree start meaning argument) :
    MakesTree start meaning (callOf argument? function) := by
  apply makes_bind start _ _ _ _ (left_paren_makes start)
  intro _ _
  apply makes_bind start _ _ addNode _ (add_node_makes start)
  intro _ _
  cases argument? with
  | none => exact makes_throw start _ _
  | some argument =>
    apply makes_bind start _ _ _ _ (arguments_make start meaning argument (read argument rfl))
    intro args each
    apply makes_bind start _ _ _ _ (right_paren_makes start)
    intro _ _
    exact makes_pure start _ _ (.call function args present each)

theorem name_makes (name : String) (present : .identifier name ∈ start) :
    MakesTree start meaning
      (match meaning name with
        | some (.ok e) => pure e
        | some (.error cause) => throw (.inName name cause)
        | none => pure (.name name)) := by
  cases stands : meaning name with
  | none => exact makes_pure start _ _ (.name name present stands)
  | some result =>
    cases result with
    | ok e => exact makes_pure start _ e (.defined name e present stands)
    | error cause => exact makes_throw start _ _

theorem primary_makes (inner : Parser Expr) (argument? : Option (Parser Expr))
    (nested : MakesTree start meaning inner)
    (read : ∀ argument ∈ argument?, MakesTree start meaning argument) :
    MakesTree start meaning (primary meaning inner argument?) := by
  apply makes_bind start _ _ consume _ (consume_makes start)
  intro token present
  cases token with
  | number n => exact makes_pure start _ _ (.leaf _ _ present rfl)
  | text s => exact makes_pure start _ _ (.leaf _ _ present rfl)
  | boolean b => exact makes_pure start _ _ (.leaf _ _ present rfl)
  | error e => exact makes_pure start _ _ (.leaf _ _ present rfl)
  | cell a => exact makes_pure start _ _ (.leaf _ _ present rfl)
  | sheet sheet =>
    apply makes_bind start _ _ consume _ (consume_makes start)
    intro token after
    cases token with
    | cell a => exact makes_pure start _ _ (.sheetCell sheet a present after)
    | _ => exact makes_throw start _ _
  | leftParen =>
    apply makes_bind start _ _ inner _ nested
    intro e built
    apply makes_bind start _ _ _ _ (right_paren_makes start)
    intro _ _
    exact makes_pure start _ e built
  | identifier name =>
    apply makes_bind start _ _ current _ (current_makes start)
    intro token _
    cases token with
    | leftParen => exact call_makes start meaning argument? name present read
    | _ => exact name_makes start meaning name present
  | _ => exact makes_throw start _ _

theorem expression_makes (room : Nat) : MakesTree start meaning (expression meaning room) := by
  have level (inner : Parser Expr) (argument? : Option (Parser Expr))
      (nested : MakesTree start meaning inner)
      (read : ∀ argument ∈ argument?, MakesTree start meaning argument) :=
    binary_makes start meaning levels _ (signed_makes start meaning _
      (primary_makes start meaning inner argument? nested read))
  induction room using Nat.strongRecOn with
  | _ room ih =>
    match room with
    | 0 => exact makes_throw start _ _
    | 1 => exact level _ none (makes_throw start _ _) (by simp)
    | room + 2 =>
      apply level
      · exact ih (room + 1) (by omega)
      · rintro _ ⟨⟩
        exact ih room (by omega)

-- A tree is given back only when the end of the text was reached.
theorem parse_tokens_makes (tokens : Tokens) (filled : tokens.list ≠ []) (e : Expr)
    (read : parseTokens meaning tokens = .ok e) :
    .eof ∈ tokens.list ∧ Built (· ∈ tokens.list) meaning e := by
  unfold parseTokens at read
  split at read
  · cases read
  · cases ran : (expression meaning maxDepth).run ⟨tokens, 0⟩ with
    | error cause =>
      rw [ran] at read
      cases read
    | ok pair =>
      obtain ⟨tree, s⟩ := pair
      obtain ⟨left, built⟩ := expression_makes tokens.list meaning maxDepth ⟨tokens, 0⟩ tree s ran
        ⟨filled, fun token member => member⟩
      simp only [ran, bind, Except.bind] at read
      obtain ⟨first, more, list⟩ := List.exists_cons_of_ne_nil left.filled
      cases first with
      | eof =>
        simp only [list, List.headD_cons] at read
        cases read
        exact ⟨left.among _ (by simp [list]), built⟩
      | _ =>
        simp only [list, List.headD_cons] at read
        cases read

theorem failed_without_tokens (separator : Char) (size : Nat) (cs : List Char)
    (none : (tokensFrom separator size cs).list = []) :
    ∃ e, tokensFrom separator size cs = ⟨[], some e⟩ := by
  rw [tokens_from_eq] at none ⊢
  cases blanks : Text.trimStart cs with
  | nil => simp [blanks] at none
  | cons c rest =>
    cases step : scanToken separator size c rest with
    | error e => exact ⟨e, by simp [step]⟩
    | ok pair => simp [blanks, step] at none

theorem parse_body_makes (cs : List Char) (e : Expr) (read : parseBody meaning cs = .ok e) :
    .eof ∈ (tokenize cs).list ∧ Built (· ∈ (tokenize cs).list) meaning e := by
  unfold parseBody at read
  split at read
  · cases read
  · split at read
    · cases read
    · apply parse_tokens_makes meaning (tokenize cs) _ e read
      intro none
      obtain ⟨cause, failed⟩ := failed_without_tokens _ _ cs none
      rw [tokenize, failed] at read
      cases read

-- What holds of a tree as soon as it holds of the trees that names stand for, holds of whatever is
-- read, for the text of a name is read without names.
theorem holds_of_read (holds : Expr → Prop)
    (each : ∀ meaning cs e, (∀ s d, meaning s = some (.ok d) → holds d) →
      parseBody meaning cs = .ok e → holds e)
    (names : Names) (text : String) (e : Expr) (read : parseWith names text = .ok e) :
    holds e := by
  refine each _ (body text) e (fun s d stands => ?_) read
  obtain ⟨source, _, parsed⟩ := Option.map_eq_some_iff.mp stands
  exact each (fun _ => none) (body source) d (fun _ _ none => nomatch none) parsed

end Grammar

end Spreadsheet.Formula
