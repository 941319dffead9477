import Spreadsheet.Proofs.Formula.Substitution

-- Defined names as substitution. Reading a formula with names goes the way of reading it without
-- them, token by token: where that way leaves a name open, the tree of its text takes the place of
-- the name and nothing of that text reaches the tokens around it.

set_option autoImplicit false

namespace Spreadsheet.Formula

open Spreadsheet.Formula.Parser Spreadsheet.Formula.Expr

section Mirrors

variable {α β γ δ : Type}

-- Where the first parser succeeds, the second one goes the same way and gives the image of its
-- result.
def Mirrors (image : α → Except ParseError β) (plain : Parser α) (other : Parser β) : Prop :=
  ∀ s a t, plain.run s = .ok (a, t) → other.run s = (image a).map (·, t)

def Yields (post : α → Prop) (plain : Parser α) : Prop :=
  ∀ s a t, plain.run s = .ok (a, t) → post a

theorem run_bind_ok (plain : Parser α) (next : α → Parser β) (s u : ParserState) (b : β)
    (ran : (plain >>= next).run s = .ok (b, u)) :
    ∃ a t, plain.run s = .ok (a, t) ∧ (next a).run t = .ok (b, u) := by
  rw [StateT.run_bind] at ran
  cases first : plain.run s with
  | error e =>
    rw [first] at ran
    cases ran
  | ok pair =>
    rw [first] at ran
    exact ⟨pair.1, pair.2, rfl, ran⟩

theorem yields_bind (post : β → Prop) (plain : Parser α) (next : α → Parser β)
    (later : ∀ a, Yields post (next a)) : Yields post (plain >>= next) := by
  intro s b u ran
  obtain ⟨a, t, _, rest⟩ := run_bind_ok plain next s u b ran
  exact later a t b u rest

theorem yields_pure (post : α → Prop) (a : α) (holds : post a) : Yields post (pure a) := by
  intro s b u ran
  cases ran
  exact holds

theorem yields_throw (post : α → Prop) (e : ParseError) : Yields post (throw e : Parser α) := by
  intro s b u ran
  cases ran

-- A result without an image must come to a result without one, for the same reason.
theorem mirrors_bind (first : α → Except ParseError β) (last : γ → Except ParseError δ)
    (plain : Parser α) (other : Parser β) (next : α → Parser γ) (after : β → Parser δ)
    (begun : Mirrors first plain other)
    (goesOn : ∀ a b, first a = .ok b → Mirrors last (next a) (after b))
    (stops : ∀ a e, first a = .error e → Yields (fun c => last c = .error e) (next a)) :
    Mirrors last (plain >>= next) (other >>= after) := by
  intro s c u ran
  obtain ⟨a, t, one, two⟩ := run_bind_ok plain next s u c ran
  rw [StateT.run_bind, begun s a t one]
  cases image : first a with
  | ok b => exact goesOn a b image t c u two
  | error e =>
    rw [stops a e image t c u two]
    rfl

theorem mirrors_step (last : γ → Except ParseError δ) (plain : Parser α) (next : α → Parser γ)
    (after : α → Parser δ) (later : ∀ a, Mirrors last (next a) (after a)) :
    Mirrors last (plain >>= next) (plain >>= after) := by
  apply mirrors_bind (fun a => .ok a) last plain plain next after
  · intro s a t ran
    exact ran
  · rintro a b same
    cases same
    exact later a
  · intro a e same
    cases same

theorem mirrors_pure (image : α → Except ParseError β) (a : α) (b : β) (same : image a = .ok b) :
    Mirrors image (pure a) (pure b) := by
  intro s c t ran
  cases ran
  rw [same]
  rfl

theorem mirrors_throw (image : α → Except ParseError β) (e : ParseError) (other : Parser β) :
    Mirrors image (throw e) other := by
  intro s a t ran
  cases ran

end Mirrors

section Grammar

variable (meaning : Meaning)

abbrev Resolves (plain other : Parser Expr) : Prop := Mirrors (resolve meaning) plain other

theorem resolve_binary_left (op : BinaryOp) (left right : Expr) (e : ParseError)
    (failed : left.resolve meaning = .error e) :
    (binary op left right).resolve meaning = .error e := by
  simp only [resolve, failed]
  rfl

theorem resolve_binary_right (op : BinaryOp) (left right done : Expr) (e : ParseError)
    (read : left.resolve meaning = .ok done) (failed : right.resolve meaning = .error e) :
    (binary op left right).resolve meaning = .error e := by
  simp only [resolve, read, failed]
  rfl

theorem chain_fails (op? : Token → Option BinaryOp) (operand : Parser Expr) (fuel : Nat)
    (left : Expr) (e : ParseError) (failed : left.resolve meaning = .error e) :
    Yields (fun tree => tree.resolve meaning = .error e) (chain op? operand fuel left) := by
  induction fuel generalizing left with
  | zero => exact yields_pure _ left failed
  | succ fuel ih =>
    apply yields_bind
    intro t
    cases op? t with
    | none => exact yields_pure _ left failed
    | some op =>
      apply yields_bind
      intro _
      apply yields_bind
      intro _
      apply yields_bind
      intro right
      exact ih _ (resolve_binary_left meaning op left right e failed)

theorem chain_resolves (op? : Token → Option BinaryOp) (operand other : Parser Expr)
    (read : Resolves meaning operand other) (fuel : Nat) (left done : Expr)
    (image : left.resolve meaning = .ok done) :
    Resolves meaning (chain op? operand fuel left) (chain op? other fuel done) := by
  induction fuel generalizing left done with
  | zero => exact mirrors_pure _ left done image
  | succ fuel ih =>
    apply mirrors_step
    intro t
    cases op? t with
    | none => exact mirrors_pure _ left done image
    | some op =>
      apply mirrors_step
      intro _
      apply mirrors_step
      intro _
      apply mirrors_bind (resolve meaning) _ _ _ _ _ read
      · intro right half same
        apply ih
        simp only [resolve, image, same]
        rfl
      · intro right e failed
        exact chain_fails meaning op? operand fuel _ e
          (resolve_binary_right meaning op left right done e image failed)

theorem binary_resolves (levels : List (Token → Option BinaryOp)) (operand other : Parser Expr)
    (read : Resolves meaning operand other) :
    Resolves meaning (Parser.binary levels operand) (Parser.binary levels other) := by
  induction levels with
  | nil => exact read
  | cons op? tighter ih =>
    apply mirrors_bind (resolve meaning) _ _ _ _ _ ih
    · intro left done image
      exact chain_resolves meaning op? _ _ ih _ left done image
    · intro left e failed
      exact chain_fails meaning op? _ _ left e failed

theorem resolve_negate_times (n : Nat) (e : Expr) :
    (negateTimes n e).resolve meaning = (e.resolve meaning).map (negateTimes n) := by
  induction n with
  | zero =>
    change e.resolve meaning = (e.resolve meaning).map id
    cases e.resolve meaning <;> rfl
  | succ n ih =>
    change (negate (negateTimes n e)).resolve meaning = _
    simp only [resolve, ih]
    cases e.resolve meaning <;> rfl

-- The range between two trees that have been read.
def between (left right : Expr) : Parser Expr :=
  match left, right with
  | .reference ⟨sheet?, .cell first⟩, .reference ⟨other?, .cell last⟩ =>
    match sheet?, other? with
    | some sheet, some other =>
      if Text.asciiSame sheet other then
        return .reference ⟨some sheet, .range (.between first last)⟩
      else throw .twoSheets
    | _, _ => return .reference ⟨sheet? <|> other?, .range (.between first last)⟩
  | _, _ => throw .rangeEnds

theorem range_of_eq (operand : Parser Expr) :
    rangeOf operand = (do
      let left ← operand
      match ← current with
      | .colon =>
        discard consume
        let right ← operand
        between left right
      | _ => return left) := rfl

-- Only references are ends of ranges, and no name touches them.
theorem between_fixed (left right : Expr) :
    Yields (fun tree => left.resolve meaning = .ok left ∧ right.resolve meaning = .ok right ∧
      tree.resolve meaning = .ok tree) (between left right) := by
  unfold between
  split
  · split
    · split
      · exact yields_pure _ _ ⟨rfl, rfl, rfl⟩
      · exact yields_throw _ _
    · exact yields_pure _ _ ⟨rfl, rfl, rfl⟩
  · exact yields_throw _ _

theorem between_resolves (left right done half : Expr) (image : left.resolve meaning = .ok done)
    (same : right.resolve meaning = .ok half) :
    Resolves meaning (between left right) (between done half) := by
  intro s tree t ran
  obtain ⟨first, last, whole⟩ := between_fixed meaning left right s tree t ran
  obtain rfl : left = done := Except.ok.inj (first.symm.trans image)
  obtain rfl : right = half := Except.ok.inj (last.symm.trans same)
  rw [ran, whole]
  rfl

theorem between_fails (left right : Expr) (e : ParseError)
    (failed : left.resolve meaning = .error e ∨ right.resolve meaning = .error e) :
    Yields (fun tree => tree.resolve meaning = .error e) (between left right) := by
  intro s tree t ran
  obtain ⟨first, last, _⟩ := between_fixed meaning left right s tree t ran
  simp [first, last] at failed

theorem range_resolves (plain other : Parser Expr) (read : Resolves meaning plain other) :
    Resolves meaning (rangeOf plain) (rangeOf other) := by
  rw [range_of_eq, range_of_eq]
  apply mirrors_bind (resolve meaning) _ _ _ _ _ read
  · intro left done image
    apply mirrors_step
    intro t
    cases t with
    | colon =>
      apply mirrors_step
      intro _
      apply mirrors_bind (resolve meaning) _ _ _ _ _ read
      · intro right half same
        exact between_resolves meaning left right done half image same
      · intro right e failed
        exact between_fails meaning left right e (.inr failed)
    | _ => exact mirrors_pure _ left done image
  · intro left e failed
    apply yields_bind
    intro t
    cases t with
    | colon =>
      apply yields_bind
      intro _
      apply yields_bind
      intro right
      exact between_fails meaning left right e (.inl failed)
    | _ => exact yields_pure _ left failed

theorem signed_resolves (plain other : Parser Expr) (read : Resolves meaning plain other) :
    Resolves meaning (signed plain) (signed other) := by
  apply mirrors_step
  intro n
  apply mirrors_bind (resolve meaning) _ _ _ _ _ (range_resolves meaning plain other read)
  · intro e done image
    apply mirrors_pure
    rw [resolve_negate_times, image]
    rfl
  · intro e cause failed
    apply yields_pure
    rw [resolve_negate_times, failed]
    rfl

theorem some_arguments_resolve (plain other : Parser Expr) (later otherLater : Parser (List Expr))
    (read : Resolves meaning plain other) (rest : Mirrors (resolveAll meaning) later otherLater) :
    Mirrors (resolveAll meaning)
      (do
        let first ← plain
        return first :: (← later))
      (do
        let first ← other
        return first :: (← otherLater)) := by
  apply mirrors_bind (resolve meaning) _ _ _ _ _ read
  · intro first done image
    apply mirrors_bind (resolveAll meaning) _ _ _ _ _ rest
    · intro more all same
      apply mirrors_pure
      simp only [resolveAll, image, same]
      rfl
    · intro more e failed
      apply yields_pure
      simp only [resolveAll, image, failed]
      rfl
  · intro first e failed
    apply yields_bind
    intro more
    apply yields_pure
    simp only [resolveAll, failed]
    rfl

theorem more_arguments_resolve (plain other : Parser Expr) (read : Resolves meaning plain other)
    (fuel : Nat) :
    Mirrors (resolveAll meaning) (moreArguments plain fuel) (moreArguments other fuel) := by
  induction fuel with
  | zero => exact mirrors_pure _ [] [] rfl
  | succ fuel ih =>
    apply mirrors_step
    intro t
    cases t with
    | separator =>
      apply mirrors_step
      intro _
      exact some_arguments_resolve meaning plain other _ _ read ih
    | _ => exact mirrors_pure _ [] [] rfl

theorem arguments_resolve (plain other : Parser Expr) (read : Resolves meaning plain other) :
    Mirrors (resolveAll meaning) (arguments plain) (arguments other) := by
  have more := more_arguments_resolve meaning plain other read (maxLength + 1)
  apply mirrors_step
  intro t
  cases t with
  | rightParen => exact mirrors_pure _ [] [] rfl
  | _ => exact some_arguments_resolve meaning plain other _ _ read more

theorem call_resolves (plain? other? : Option (Parser Expr)) (function : String)
    (read : ∀ plain ∈ plain?, ∃ other, other? = some other ∧ Resolves meaning plain other) :
    Resolves meaning (callOf plain? function) (callOf other? function) := by
  apply mirrors_step
  intro _
  apply mirrors_step
  intro _
  cases plain? with
  | none => exact mirrors_throw _ _ _
  | some plain =>
    obtain ⟨other, rfl, same⟩ := read plain rfl
    apply mirrors_bind (resolveAll meaning) _ _ _ _ _ (arguments_resolve meaning plain other same)
    · intro args done image
      apply mirrors_step
      intro _
      apply mirrors_pure
      simp only [resolve, image]
      rfl
    · intro args e failed
      apply yields_bind
      intro _
      apply yields_pure
      simp only [resolve, failed]
      rfl

-- A name takes the tree of its text where it is no function; what follows it is read the same way.
theorem name_resolves (s : String) :
    Resolves meaning (pure (.name s))
      (match meaning s with
        | some (.ok e) => pure e
        | some (.error cause) => throw (.inName s cause)
        | none => pure (.name s)) := by
  intro before tree after ran
  cases ran
  cases stands : meaning s with
  | none =>
    simp only [resolve, stands]
    rfl
  | some result =>
    cases result with
    | ok e =>
      simp only [resolve, stands]
      rfl
    | error cause =>
      simp only [resolve, stands]
      rfl

theorem primary_resolves (inner otherInner : Parser Expr) (plain? other? : Option (Parser Expr))
    (nested : Resolves meaning inner otherInner)
    (read : ∀ plain ∈ plain?, ∃ other, other? = some other ∧ Resolves meaning plain other) :
    Resolves meaning (primary (fun _ => none) inner plain?)
      (primary meaning otherInner other?) := by
  apply mirrors_step
  intro t
  cases t with
  | number n => exact mirrors_pure _ _ _ rfl
  | text s => exact mirrors_pure _ _ _ rfl
  | boolean b => exact mirrors_pure _ _ _ rfl
  | error e => exact mirrors_pure _ _ _ rfl
  | cell a => exact mirrors_pure _ _ _ rfl
  | sheet sheet =>
    apply mirrors_step
    intro t
    cases t with
    | cell a => exact mirrors_pure _ _ _ rfl
    | _ => exact mirrors_throw _ _ _
  | leftParen =>
    apply mirrors_bind (resolve meaning) _ _ _ _ _ nested
    · intro e done image
      apply mirrors_step
      intro _
      exact mirrors_pure _ e done image
    · intro e cause failed
      apply yields_bind
      intro _
      exact yields_pure _ e failed
  | identifier s =>
    apply mirrors_step
    intro t
    cases t with
    | leftParen => exact call_resolves meaning plain? other? s read
    | _ => exact name_resolves meaning s
  | _ => exact mirrors_throw _ _ _

theorem expression_resolves (room : Nat) :
    Resolves meaning (expression (fun _ => none) room) (expression meaning room) := by
  have level (inner otherInner : Parser Expr) (plain? other? : Option (Parser Expr))
      (nested : Resolves meaning inner otherInner)
      (read : ∀ plain ∈ plain?, ∃ other, other? = some other ∧ Resolves meaning plain other) :=
    binary_resolves meaning levels _ _ (signed_resolves meaning _ _
      (primary_resolves meaning inner otherInner plain? other? nested read))
  induction room using Nat.strongRecOn with
  | _ room ih =>
    match room with
    | 0 => exact mirrors_throw _ _ _
    | 1 => exact level _ _ none none (mirrors_throw _ _ _) (by simp)
    | room + 2 =>
      apply level
      · exact ih (room + 1) (by omega)
      · rintro _ ⟨⟩
        exact ⟨_, rfl, ih room (by omega)⟩

end Grammar

theorem parse_tokens_resolves (meaning : Meaning) (tokens : Tokens) (e : Expr)
    (read : parseTokens (fun _ => none) tokens = .ok e) :
    parseTokens meaning tokens = e.resolve meaning := by
  unfold parseTokens at read ⊢
  split
  · cases read
  · cases ran : (expression (fun _ => none) maxDepth).run ⟨tokens, 0⟩ with
    | error cause =>
      simp only [ran] at read
      cases read
    | ok pair =>
      obtain ⟨tree, s⟩ := pair
      simp only [ran, expression_resolves meaning maxDepth _ tree s ran] at read ⊢
      cases last : s.tokens.list.headD .eof with
      | eof =>
        simp only [bind, Except.bind, last] at read
        cases read
        cases e.resolve meaning with
        | ok done => simp only [Except.map, bind, Except.bind, last, pure, Except.pure]
        | error cause => rfl
      | _ =>
        simp only [bind, Except.bind, last] at read
        cases read

theorem parse_body_resolves (meaning : Meaning) (cs : List Char) (e : Expr)
    (read : parseBody (fun _ => none) cs = .ok e) : parseBody meaning cs = e.resolve meaning := by
  unfold parseBody at read ⊢
  split at read
  · cases read
  · split at read
    · cases read
    · rename_i blank long
      rw [if_neg blank, if_neg long]
      exact parse_tokens_resolves meaning (tokenize cs) e read

-- Reading with names is reading without them, and then putting trees in the place of names.
theorem parse_with_resolves (names : Names) (text : String) (e : Expr)
    (read : parse text = .ok e) :
    parseWith names text = e.resolve fun name => (names.get? name).map parse :=
  parse_body_resolves _ (body text) e read

-- Reading with names succeeds where the texts of the names left open are formulas, and puts their
-- trees in the place of these names; the last entry for a name gives its text.
theorem names_are_substituted (names : Names) (text : String) (e : Expr)
    (read : parse text = .ok e) :
    ((∃ d, parseWith names text = .ok d) ↔
      ∀ name ∈ e.openNames, ∀ source, names.get? name = some source →
        ∃ tree, parse source = .ok tree) ∧
    (∀ d, parseWith names text = .ok d →
      d = e.replace fun name => (names.get? name).bind fun source => (parse source).toOption) ∧
    ∀ entries, names = Names.empty.insertAll entries →
      ∀ name, names.get? name = Names.lastText entries name := by
  let meaning : Meaning := fun name => (names.get? name).map parse
  have resolved (d : Expr) : parseWith names text = .ok d ↔
      Readable meaning e.openNames ∧ d = e.replace (treeOf meaning) := by
    rw [parse_with_resolves names text e read]
    exact resolve_ok_iff meaning e d
  have trees : treeOf meaning =
      fun name => (names.get? name).bind fun source => (parse source).toOption := by
    funext name
    simp only [treeOf, meaning]
    cases names.get? name <;> rfl
  have readable : Readable meaning e.openNames ↔
      ∀ name ∈ e.openNames, ∀ source, names.get? name = some source →
        ∃ tree, parse source = .ok tree := by
    simp only [Readable, meaning, Option.map_eq_some_iff, forall_exists_index, and_imp,
      forall_apply_eq_imp_iff₂]
  refine ⟨?_, ?_, ?_⟩
  · rw [← readable]
    constructor
    · intro read
      obtain ⟨d, done⟩ := read
      exact ((resolved d).mp done).1
    · intro all
      exact ⟨_, (resolved _).mpr ⟨all, rfl⟩⟩
  · intro d done
    rw [← trees]
    exact ((resolved d).mp done).2
  · rintro entries rfl name
    rw [Names.get?_insert_all, Names.get?_empty, Option.or_none]

-- A sum in the place of a name is one factor, and a name without a text stays.
theorem names_are_substituted_in_product :
    let names := Names.empty.insertAll [("total", "A1)"), ("Total", "A1+A2")]
    let cell (row col : Nat) : Expr := .reference ⟨none, .cell ⟨row, col⟩⟩
    parse "=TOTAL*B2&Other" =
        .ok (.binary .concat (.binary .multiply (.name "TOTAL") (cell 2 2)) (.name "Other")) ∧
      names.get? "TOTAL" = some "A1+A2" ∧ names.get? "Other" = none ∧
      parseWith names "=TOTAL*B2&Other" =
        .ok (.binary .concat
          (.binary .multiply (.binary .add (cell 1 1) (cell 2 1)) (cell 2 2)) (.name "Other")) := by
  intro names cell
  have read : parse "=TOTAL*B2&Other" =
      .ok (.binary .concat (.binary .multiply (.name "TOTAL") (cell 2 2)) (.name "Other")) := by
    apply read_of_same
    decide +kernel
  have sum : parse "A1+A2" = .ok (.binary .add (cell 1 1) (cell 2 1)) := by
    apply read_of_same
    decide +kernel
  obtain ⟨succeeds, replaced, table⟩ :=
    names_are_substituted names "=TOTAL*B2&Other" _ read
  have defined : names.get? "TOTAL" = some "A1+A2" := by
    rw [table _ rfl]
    decide +kernel
  have absent : names.get? "Other" = none := by
    rw [table _ rfl]
    decide +kernel
  obtain ⟨d, done⟩ := succeeds.mpr <| by
    intro name member source given
    simp only [cell, openNames, List.append_nil, List.mem_append, List.mem_singleton] at member
    rcases member with rfl | rfl
    · rw [defined] at given
      cases given
      exact ⟨_, sum⟩
    · rw [absent] at given
      cases given
  refine ⟨read, defined, absent, done.trans ?_⟩
  rw [replaced d done]
  simp only [replace, defined, absent, Option.bind_some, Option.bind_none, sum, Except.toOption,
    Option.getD_some, Option.getD_none, cell]

end Spreadsheet.Formula
