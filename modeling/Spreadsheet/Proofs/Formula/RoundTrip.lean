import Spreadsheet.Proofs.Formula.Grammar
import Spreadsheet.Proofs.Formula.Lexemes

-- The text of an expression is read as that expression. Its lexemes can stand side by side, so
-- the scanner gives back their tokens; the tokens of each subtree are read at its own level.

set_option autoImplicit false

namespace Spreadsheet.Formula

open Spreadsheet.Formula.Parser

namespace Written

section Lexemes

theorem opens_wrap (least level : Nat) (xs : List Lexeme)
    (opens : ∃ x more, xs = x :: more ∧ x.opens = true) :
    ∃ x more, wrap least level xs = x :: more ∧ x.opens = true := by
  unfold wrap
  split
  · exact ⟨.leftParen, _, rfl, rfl⟩
  · exact opens

theorem lexemes_open : ∀ w : Written, ∃ x more, w.lexemes = x :: more ∧ x.opens = true
  | number n => ⟨.number n, [], rfl, rfl⟩
  | text s => ⟨.text s, [], rfl, rfl⟩
  | boolean b => ⟨.boolean b, [], rfl, rfl⟩
  | error e => ⟨.error e, [], rfl, rfl⟩
  | cell none a valid => ⟨.cell a valid, [], rfl, rfl⟩
  | cell (some sheet) _ _ => ⟨.sheet sheet, _, rfl, rfl⟩
  | range none r valid _ => ⟨.cell r.first valid.1, _, rfl, rfl⟩
  | range (some sheet) _ _ _ => ⟨.sheet sheet, _, rfl, rfl⟩
  | name i free => ⟨.name i free, [], rfl, rfl⟩
  | negate _ => ⟨.operator .subtract, _, rfl, rfl⟩
  | binary op left right => by
    obtain ⟨x, more, same, opens⟩ := opens_wrap op.level left.level _ (lexemes_open left)
    exact ⟨x, more ++ .operator op :: wrap (op.level + 1) right.level right.lexemes,
      by simp [lexemes, same], opens⟩
  | call function _ _ => ⟨.function function, _, rfl, rfl⟩

-- The lexemes can stand side by side, before any that can follow an expression.
def Joined (xs : List Lexeme) : Prop :=
  ∀ y, y.follows = true → (xs ++ [y]).IsChain Lexeme.Fits

theorem joined_one (x : Lexeme) (fits : ∀ y, y.follows = true → x.Fits y) : Joined [x] :=
  fun y follows => List.isChain_cons_cons.mpr ⟨fits y follows, .singleton y⟩

-- After a lexeme that fits all that can open an expression.
theorem chain_after (x : Lexeme) (xs : List Lexeme) (fits : ∀ y, y.opens = true → x.Fits y)
    (opens : ∃ first more, xs = first :: more ∧ first.opens = true) (y : Lexeme)
    (chain : (xs ++ [y]).IsChain Lexeme.Fits) : (x :: (xs ++ [y])).IsChain Lexeme.Fits := by
  obtain ⟨first, more, rfl, can⟩ := opens
  exact List.isChain_cons_cons.mpr ⟨fits first can, chain⟩

theorem joined_sheet (sheet? : Option String) (xs : List Lexeme) (filled : xs ≠ [])
    (joined : Joined xs) : Joined (sheetLexemes sheet? ++ xs) := by
  obtain ⟨first, more, rfl⟩ := List.exists_cons_of_ne_nil filled
  cases sheet? with
  | none => exact joined
  | some sheet => exact fun y follows => List.isChain_cons_cons.mpr ⟨trivial, joined y follows⟩

theorem chain_closed (xs : List Lexeme) (chain : (xs ++ [Lexeme.rightParen]).IsChain Lexeme.Fits)
    (y : Lexeme) (follows : y.follows = true) :
    (xs ++ .rightParen :: [y]).IsChain Lexeme.Fits :=
  List.isChain_split.mpr ⟨chain, joined_one .rightParen (fun _ can => can) y follows⟩

theorem joined_wrap (least level : Nat) (xs : List Lexeme) (joined : Joined xs) :
    Joined (wrap least level xs) := by
  unfold wrap
  split
  · intro y follows
    have closed := chain_closed xs (joined .rightParen rfl) y follows
    rw [List.cons_append, List.append_assoc]
    exact List.isChain_cons.mpr ⟨fun _ _ => trivial, closed⟩
  · exact joined

mutual

theorem lexemes_joined : ∀ w : Written, Joined w.lexemes
  | number n => joined_one _ fun _ follows => follows
  | text s => joined_one _ fun _ follows => follows
  | boolean b => joined_one _ fun _ follows => follows
  | error e => joined_one _ fun _ follows => follows
  | cell sheet? a valid =>
    joined_sheet sheet? _ (by simp) (joined_one _ fun _ follows => follows)
  | range sheet? r valid _ => joined_sheet sheet? _ (by simp) fun y follows =>
    List.isChain_cons_cons.mpr ⟨rfl, List.isChain_cons_cons.mpr ⟨trivial,
      joined_one (.cell r.last valid.2) (fun _ can => can) y follows⟩⟩
  | name i free => joined_one _ fun _ follows => follows
  | negate operand => fun y follows =>
    chain_after (.operator .subtract) _ (fun _ can => can)
      (opens_wrap signLevel operand.level _ (lexemes_open operand)) y
      (joined_wrap _ _ _ (lexemes_joined operand) y follows)
  | binary op left right => fun y follows => by
    have after := chain_after (.operator op) _ (fun _ can => can)
      (opens_wrap (op.level + 1) right.level _ (lexemes_open right)) y
      (joined_wrap _ _ _ (lexemes_joined right) y follows)
    have before := joined_wrap op.level left.level _ (lexemes_joined left) (.operator op) rfl
    simpa [lexemes] using List.isChain_split.mpr ⟨before, after⟩
  | call function _ args => fun y follows => by
    have closed := chain_closed _ (arguments_joined args) y follows
    have opened : (Lexeme.leftParen :: (argumentLexemes args ++ .rightParen :: [y])).IsChain
        Lexeme.Fits := List.isChain_cons.mpr ⟨fun _ _ => trivial, closed⟩
    have called : (Lexeme.function function :: .leftParen ::
        (argumentLexemes args ++ .rightParen :: [y])).IsChain Lexeme.Fits :=
      List.isChain_cons_cons.mpr ⟨rfl, opened⟩
    simpa [lexemes] using called

theorem arguments_joined : ∀ args : List Written,
    (argumentLexemes args ++ [Lexeme.rightParen]).IsChain Lexeme.Fits
  | [] => .singleton _
  | w :: rest => by
    obtain ⟨y, more, same, follows, chain⟩ := later_joined rest
    rw [argumentLexemes, List.append_assoc, same]
    exact List.isChain_split.mpr ⟨lexemes_joined w y follows, chain⟩

theorem later_joined : ∀ args : List Written, ∃ y more,
    laterLexemes args ++ [Lexeme.rightParen] = y :: more ∧ y.follows = true ∧
      (y :: more).IsChain Lexeme.Fits
  | [] => ⟨.rightParen, [], rfl, rfl, .singleton _⟩
  | w :: rest => by
    obtain ⟨y, more, same, follows, chain⟩ := later_joined rest
    refine ⟨.separator, w.lexemes ++ y :: more, by simp [laterLexemes, same], rfl, ?_⟩
    exact List.isChain_cons.mpr
      ⟨fun _ _ => trivial, List.isChain_split.mpr ⟨lexemes_joined w y follows, chain⟩⟩

end

theorem mem_wrap (x : Lexeme) (least level : Nat) (xs : List Lexeme) (member : x ∈ xs) :
    x ∈ wrap least level xs := by
  unfold wrap
  split <;> simp [member]

theorem separator_later (args : List Written) (filled : args ≠ []) :
    .separator ∈ laterLexemes args := by
  cases args with
  | nil => cases filled rfl
  | cons w rest => exact List.mem_cons_self

mutual

theorem separator_written (w : Written) (separates : w.Separates) : .separator ∈ w.lexemes := by
  cases w with
  | negate operand =>
    exact List.mem_cons_of_mem _ (mem_wrap _ _ _ _ (separator_written operand separates))
  | binary _ left right =>
    rcases separates with first | second
    · exact List.mem_append_left _ (mem_wrap _ _ _ _ (separator_written left first))
    · exact List.mem_append_right _
        (List.mem_cons_of_mem _ (mem_wrap _ _ _ _ (separator_written right second)))
  | call _ _ args =>
    have inside : .separator ∈ argumentLexemes args := by
      rcases separates with several | inner
      · obtain ⟨first, rest, rfl⟩ := List.exists_cons_of_length_pos (by omega : 0 < args.length)
        refine List.mem_append_right _ (separator_later rest ?_)
        rintro rfl
        simp at several
      · exact separator_arguments args inner
    exact List.mem_cons_of_mem _ (List.mem_cons_of_mem _ (List.mem_append_left _ inside))
  | _ => exact separates.elim

theorem separator_arguments : ∀ args : List Written, SeparatesIn args →
    .separator ∈ argumentLexemes args
  | w :: rest, separates => by
    rcases separates with here | later
    · exact List.mem_append_left _ (separator_written w here)
    · refine List.mem_append_right _ (separator_later rest ?_)
      rintro rfl
      exact later

end

theorem length_le_wrap (least level : Nat) (xs : List Lexeme) :
    xs.length ≤ (wrap least level xs).length := by
  unfold wrap
  split
  · simp
    omega
  · exact Nat.le_refl _

theorem length_le_later (args : List Written) : args.length ≤ (laterLexemes args).length := by
  induction args with
  | nil => exact Nat.le_refl 0
  | cons w rest ih =>
    simp only [laterLexemes, List.length_cons, List.length_append]
    omega

end Lexemes

section Reading

variable (substitute : String → Option (Except ParseError Expr))

-- Parentheses leave room for one level less inside them.
theorem reads_wrap (room least : Nat) (w : Written) (few : w.nodes ≤ maxNodes)
    (deep : wrapDepth least w.level w.depth ≤ room)
    (reads : ∀ inner, w.depth ≤ inner →
      Reads substitute inner (w.lexemes.map Lexeme.token) w.nodes w.expr w.level) :
    ∃ level, least ≤ level ∧ Reads substitute room
      ((wrap least w.level w.lexemes).map Lexeme.token) w.nodes w.expr level := by
  unfold wrapDepth at deep
  unfold wrap
  by_cases loose : w.level < least
  · rw [if_pos loose] at deep ⊢
    obtain ⟨inner, rfl⟩ : ∃ k, room = k + 1 := ⟨room - 1, by omega⟩
    have parens := operand_parens substitute inner _ _ _ w.level few (reads inner (by omega))
    refine ⟨least, Nat.le_refl least, ?_⟩
    simpa [Lexeme.token] using reads_operand substitute (inner + 1) .leftParen _ _ _ least few
      (by simp) (by simp) parens
  · rw [if_neg loose] at deep ⊢
    exact ⟨w.level, by omega, reads room deep⟩

theorem later_tokens (args : List Written) (rest : List Token) : ∃ t more,
    (laterLexemes args).map Lexeme.token ++ .rightParen :: rest = t :: more ∧ t.grip = 0 := by
  cases args with
  | nil => exact ⟨.rightParen, rest, rfl, rfl⟩
  | cons w later => exact ⟨.separator, _, rfl, rfl⟩

theorem first_token (w : Written) : ∃ t more,
    w.lexemes.map Lexeme.token = t :: more ∧ t ≠ .rightParen := by
  obtain ⟨x, more, same, opens⟩ := lexemes_open w
  refine ⟨x.token, more.map Lexeme.token, by rw [same]; rfl, ?_⟩
  cases x with
  | operator op => cases op <;> simp [Lexeme.token, BinaryOp.token]
  | rightParen => cases opens
  | _ => simp [Lexeme.token]

-- An argument is read up to the separator or the parenthesis after it.
theorem reads_argument (room : Nat) (w : Written) (few : w.nodes ≤ maxNodes)
    (reads : Reads substitute room (w.lexemes.map Lexeme.token) w.nodes w.expr w.level)
    (args : List Written) (rest : List Token) :
    Advances (layer substitute room 0)
      (w.lexemes.map Lexeme.token ++ ((laterLexemes args).map Lexeme.token ++ .rightParen :: rest))
      w.nodes (pure w.expr) ((laterLexemes args).map Lexeme.token ++ .rightParen :: rest) := by
  obtain ⟨t, more, same, loose⟩ := later_tokens args rest
  rw [same]
  exact stands_of_reads substitute room _ _ _ few w.level 0 (by omega) (by omega) reads t more
    (by omega)

mutual

theorem reads_written (undefined : ∀ name, substitute name = none) (w : Written) (room : Nat)
    (deep : w.depth ≤ room) (few : w.nodes ≤ maxNodes) (short : w.lexemes.length ≤ maxLength) :
    Reads substitute room (w.lexemes.map Lexeme.token) w.nodes w.expr w.level := by
  cases w with
  | number n => exact reads_leaf substitute room (.number n.value) (.number n.value) _ rfl
  | text s => exact reads_leaf substitute room (.text s) (.text s) _ rfl
  | boolean b => exact reads_leaf substitute room (.boolean b) (.boolean b) _ rfl
  | error e => exact reads_leaf substitute room (.error e) (.error e) _ rfl
  | name i free =>
    exact reads_operand substitute room (.identifier i.text) [] 0 _ _ few (by simp) (by simp)
      (operand_name substitute room i.text (undefined i.text))
  | cell sheet? a valid =>
    have tokens : (lexemes (cell sheet? a valid)).map Lexeme.token = cellTokens sheet? a ++ [] := by
      cases sheet? <;> rfl
    have operand := operand_cell substitute room sheet? a
    rw [← List.append_nil (cellTokens sheet? a)] at operand
    rw [tokens]
    exact reads_from_cell substitute room sheet? a _ _ _ operand
  | range sheet? r valid normal =>
    have tokens : (lexemes (range sheet? r valid normal)).map Lexeme.token =
        cellTokens sheet? r.first ++ [.colon, .cell r.last] := by
      cases sheet? <;> rfl
    have operand := operand_range substitute room sheet? r.first r.last
    rw [Range.between_of_normal r normal] at operand
    rw [tokens]
    exact reads_from_cell substitute room sheet? r.first _ _ _ operand
  | negate operand =>
    have inside : operand.nodes ≤ maxNodes := Nat.le_of_succ_le few
    have shorter : operand.lexemes.length ≤ maxLength :=
      (length_le_wrap _ _ _).trans (Nat.le_of_succ_le short)
    obtain ⟨level, tight, reads⟩ := reads_wrap substitute room signLevel operand inside deep
      fun inner deep => reads_written undefined operand inner deep inside shorter
    exact reads_negate substitute room _ _ _ level few tight reads
  | binary op left right =>
    simp only [nodes] at few
    simp only [depth] at deep
    simp only [lexemes, List.length_append, List.length_cons] at short
    have first := length_le_wrap op.level left.level left.lexemes
    have second := length_le_wrap (op.level + 1) right.level right.lexemes
    obtain ⟨before, loose, readsLeft⟩ := reads_wrap substitute room op.level left (by omega)
      (by omega) fun inner deep => reads_written undefined left inner deep (by omega) (by omega)
    obtain ⟨after, tight, readsRight⟩ := reads_wrap substitute room (op.level + 1) right (by omega)
      (by omega) fun inner deep => reads_written undefined right inner deep (by omega) (by omega)
    rw [lexemes, List.map_append]
    exact reads_binary substitute room op _ _ _ _ _ _ before after few loose tight readsLeft
      readsRight
  | call function upper args =>
    simp only [nodes] at few
    simp only [depth] at deep
    simp only [lexemes, List.length_cons, List.length_append] at short
    obtain ⟨inner, rfl⟩ : ∃ k, room = k + 2 := ⟨room - 2, by omega⟩
    have given : argumentAt substitute (inner + 2) = some (layer substitute inner 0) := by
      rw [argumentAt, expression_layer]
    have operand := operand_call substitute (inner + 2) function.text upper _ _ _ _ given
      (reads_arguments undefined args inner (by omega) (by omega) (by omega))
    rw [lexemes, List.map_cons, List.map_cons, List.map_append]
    exact reads_operand substitute (inner + 2) (.identifier function.text) _ _ _ _ few (by simp)
      (by simp) operand

theorem reads_arguments (undefined : ∀ name, substitute name = none) (args : List Written)
    (room : Nat) (deep : argumentDepth args ≤ room) (few : argumentNodes args ≤ maxNodes)
    (short : (argumentLexemes args).length ≤ maxLength) (rest : List Token) :
    Advances (arguments (layer substitute room 0))
      ((argumentLexemes args).map Lexeme.token ++ .rightParen :: rest) (argumentNodes args)
      (pure (exprs args)) (.rightParen :: rest) := by
  cases args with
  | nil => exact arguments_none (layer substitute room 0) rest
  | cons w later =>
    simp only [argumentNodes] at few
    simp only [argumentDepth] at deep
    simp only [argumentLexemes, List.length_append] at short
    have bound := length_le_later later
    have one := reads_argument substitute room w (by omega)
      (reads_written undefined w room (by omega) (by omega) (by omega)) later rest
    have others := reads_later undefined later room (by omega) (by omega) (by omega) (maxLength + 1)
      (by omega) rest
    obtain ⟨t, more, same, filled⟩ := first_token w
    rw [argumentLexemes, List.map_append, List.append_assoc, argumentNodes,
      ← Nat.zero_add (w.nodes + argumentNodes later)]
    refine advances_trans _ _ _ _ _ _ 0 _ ?_ (argument_and_more _ _ _ _ _ _ _ _ _ one others)
    rw [same]
    exact arguments_some (layer substitute room 0) t _ filled

theorem reads_later (undefined : ∀ name, substitute name = none) (args : List Written)
    (room : Nat) (deep : argumentDepth args ≤ room) (few : argumentNodes args ≤ maxNodes)
    (short : (laterLexemes args).length ≤ maxLength) (fuel : Nat) (enough : args.length ≤ fuel)
    (rest : List Token) :
    Advances (moreArguments (layer substitute room 0) fuel)
      ((laterLexemes args).map Lexeme.token ++ .rightParen :: rest) (argumentNodes args)
      (pure (exprs args)) (.rightParen :: rest) := by
  cases args with
  | nil => exact more_arguments_none (layer substitute room 0) fuel rest
  | cons w later =>
    simp only [argumentNodes] at few
    simp only [argumentDepth] at deep
    simp only [laterLexemes, List.length_cons, List.length_append] at short
    obtain ⟨fuel, rfl⟩ : ∃ k, fuel = k + 1 := ⟨fuel - 1, by simp at enough; omega⟩
    have one := reads_argument substitute room w (by omega)
      (reads_written undefined w room (by omega) (by omega) (by omega)) later rest
    have others := reads_later undefined later room (by omega) (by omega) (by omega) fuel
      (by simpa using enough) rest
    rw [laterLexemes, List.map_cons, List.map_append, List.cons_append, List.append_assoc,
      argumentNodes, ← Nat.zero_add (w.nodes + argumentNodes later)]
    exact advances_trans _ _ _ _ _ _ 0 _ (more_arguments_some _ fuel _ (by simp))
      (argument_and_more _ _ _ _ _ _ _ _ _ one others)

end

end Reading

section Text

variable (separator : Char) (w : Written)

theorem body_written (known : separator = ',' ∨ separator = ';') :
    body (String.ofList ('=' :: w.chars separator)) = w.chars separator := by
  obtain ⟨x, more, same, _⟩ := lexemes_open w
  have solid := solid_lexemes separator known w.lexemes (by simp [same])
  have trimmed := Text.trim_of_solid ('=' :: w.chars separator)
    (Text.solid_append ['='] _ solid) ((Text.stops_cons _ _ _).mpr (by decide))
  rw [body, String.toList_ofList, trimmed]
  rfl

theorem tokenize_written (known : separator = ',' ∨ separator = ';' ∧ w.Separates)
    (apart : w.ErrorsApart) :
    tokenize (w.chars separator) = ⟨w.lexemes.map Lexeme.token ++ [.eof], none⟩ := by
  have detected : detectSeparator (w.chars separator) = separator := by
    rcases known with rfl | ⟨rfl, separates⟩
    · exact detect_comma w.lexemes
    · exact detect_semicolon w.lexemes (separator_written w separates)
  rw [tokenize, detected]
  exact tokens_of_lexemes separator _ (known.imp_right And.left) w.lexemes
    (lexemes_joined w .rightParen rfl) apart

theorem tokens_written (substitute : String → Option (Except ParseError Expr))
    (undefined : ∀ name, substitute name = none) (few : w.nodes ≤ maxNodes)
    (deep : w.depth < maxDepth) (short : w.lexemes.length ≤ maxLength) :
    parseTokens substitute ⟨w.lexemes.map Lexeme.token ++ [.eof], none⟩ = .ok w.expr := by
  obtain ⟨room, top⟩ : ∃ room, maxDepth = room + 1 := ⟨127, rfl⟩
  have reads := reads_written substitute undefined w room (by omega) few short
  have run := stands_of_reads substitute room _ _ _ few w.level 0 (by omega) (by omega) reads
    .eof [] (by decide) 0 (by omega)
  rw [← expression_layer, ← top] at run
  rw [parseTokens, run]
  · rfl
  · obtain ⟨t, more, same, _⟩ := first_token w
    simp [same]

end Text

-- The text of an expression is parsed as that expression, with either separator, unless a
-- division sign follows an error at once.
theorem parse_written (separator : Char) (w : Written)
    (known : separator = ',' ∨ separator = ';' ∧ w.Separates) (apart : w.ErrorsApart)
    (short : (w.chars separator).length ≤ maxLength) (few : w.nodes ≤ maxNodes)
    (deep : w.depth < maxDepth) :
    parse (String.ofList ('=' :: w.chars separator)) = .ok w.expr := by
  have either := known.imp_right And.left
  obtain ⟨x, more, same, _⟩ := lexemes_open w
  have solid := solid_lexemes separator either w.lexemes (by simp [same])
  have lexemes := length_lexemes_le separator either w.lexemes
  rw [parse, body_written separator w either, parseBody, if_neg, if_neg,
    tokenize_written separator w known apart]
  · exact tokens_written w _ (fun _ => rfl) few deep (lexemes.trans short)
  · exact Nat.not_lt.mpr short
  · simp [chars, Text.not_all_blank_of_solid _ solid]

-- Separators and quote characters inside a sheet name and a text, and operators that need
-- parentheses.
def quotedCall : Written :=
  .call ⟨'S', ['U', 'M'], by decide, by decide⟩ (by decide +kernel) [
    .range (some "a;'b") ⟨⟨1, 1⟩, ⟨2, 2⟩⟩ (by decide) (by decide),
    .binary .multiply
      (.negate (.binary .add (.cell none ⟨1, 1⟩ (by decide))
        (.number ⟨['2'], some ['5'], none, by decide, by decide, by decide⟩)))
      (.text ";\""),
    .error .notAvailable]

theorem parse_written_quoted :
    quotedCall.Separates ∧ quotedCall.ErrorsApart ∧
      String.ofList ('=' :: quotedCall.chars ';') =
        "=SUM('a;''b'!A1:B2;-(A1+2.5)*\";\"\"\";#N/A)" ∧
      parse "=SUM('a;''b'!A1:B2;-(A1+2.5)*\";\"\"\";#N/A)" = .ok quotedCall.expr := by
  have separates : quotedCall.Separates := .inl (by decide)
  have apart : quotedCall.ErrorsApart := fun e inside => by
    have divides := inside.subset (List.mem_cons_of_mem _ List.mem_cons_self)
    simp [quotedCall, lexemes, argumentLexemes, laterLexemes, wrap, sheetLexemes, level,
      BinaryOp.level, signLevel, operandLevel] at divides
  have text : String.ofList ('=' :: quotedCall.chars ';') =
      "=SUM('a;''b'!A1:B2;-(A1+2.5)*\";\"\"\";#N/A)" := by decide +kernel
  have parsed := parse_written ';' quotedCall (.inr ⟨rfl, separates⟩) apart (by decide +kernel)
    (by decide) (by decide)
  exact ⟨separates, apart, text, text ▸ parsed⟩

def dividedError : Written :=
  .binary .divide (.error .notAvailable)
    (.number ⟨['2'], none, none, by decide, by decide, by decide⟩)

-- An error takes a division sign after it for a part of itself.
theorem parse_divided_error :
    (dividedError.chars ',').length ≤ maxLength ∧ dividedError.nodes ≤ maxNodes ∧
      dividedError.depth < maxDepth ∧
      String.ofList ('=' :: dividedError.chars ',') = "=#N/A/2" ∧
      parse "=#N/A/2" = .error (.scan (.unknownError "#N/A/2")) ∧
      parse (String.ofList ('=' :: dividedError.chars ',')) ≠ .ok dividedError.expr := by
  have text : String.ofList ('=' :: dividedError.chars ',') = "=#N/A/2" := by decide +kernel
  have failed : parse "=#N/A/2" = .error (.scan (.unknownError "#N/A/2")) := by
    with_unfolding_all rfl
  refine ⟨by decide +kernel, by decide, by decide, text, failed, ?_⟩
  rw [text, failed]
  exact fun same => nomatch same

end Written

end Spreadsheet.Formula
