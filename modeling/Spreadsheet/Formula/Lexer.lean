import Spreadsheet.Formula.ParseError

-- Formula text as tokens. A semicolon outside quotes makes semicolons separate arguments and
-- commas mark decimals; otherwise commas separate.

set_option autoImplicit false

namespace Spreadsheet.Formula

-- The separator of the text from the given quotation state on.
def separatorFrom (inText inSheet : Bool) : List Char → Char
  | [] => ','
  | c :: rest =>
    if c = '"' ∧ inSheet = false then separatorFrom (!inText) inSheet rest
    else if c = '\'' ∧ inText = false then separatorFrom inText (!inSheet) rest
    else if c = ';' ∧ inText = false ∧ inSheet = false then ';'
    else separatorFrom inText inSheet rest

def detectSeparator (cs : List Char) : Char := separatorFrom false false cs

-- The text up to the next single quote character, of which two stand for one, and the rest.
def takeQuoted (quote : Char) : List Char → Option (List Char × List Char)
  | [] => none
  | [c] => if c = quote then some ([], []) else none
  | c :: d :: rest =>
    if c = quote then
      if d = quote then (takeQuoted quote rest).map fun (s, after) => (quote :: s, after)
      else some ([], d :: rest)
    else (takeQuoted quote (d :: rest)).map fun (s, after) => (c :: s, after)

theorem length_takeQuoted (quote : Char) (cs s after : List Char)
    (h : takeQuoted quote cs = some (s, after)) : after.length < cs.length := by
  fun_induction takeQuoted quote cs generalizing s after with
  | case1 => simp at h
  | case2 => simp at h; simp [h.2]
  | case3 => simp at h
  | case4 _ ih =>
    obtain ⟨⟨s', a'⟩, found, eq⟩ := Option.map_eq_some_iff.mp h
    cases eq
    have := ih _ _ found
    simp; omega
  | case5 => simp at h; simp [← h.2]
  | case6 _ _ _ _ ih =>
    obtain ⟨⟨s', a'⟩, found, eq⟩ := Option.map_eq_some_iff.mp h
    cases eq
    have := ih _ _ found
    simp at this ⊢; omega

theorem length_dropWhile_le (p : Char → Bool) (cs : List Char) :
    (cs.dropWhile p).length ≤ cs.length := (List.dropWhile_sublist p).length_le

def isErrorPart (c : Char) : Bool := c.isAlphanum || c == '!' || c == '/' || c == '?'

def isNamePart (c : Char) : Bool := c.isAlphanum || c == '_' || c == '$' || c == '.'

def isNameStart (c : Char) : Bool := c.isAlpha || c == '_' || c == '$'

def startsWithDigit (cs : List Char) : Bool := (cs.head?.map Decimal.isDigit).getD false

-- The digits after a decimal mark, when one stands here, and the rest.
def takeFraction (separator : Char) : List Char → List Char × List Char
  | '.' :: rest => (rest.takeWhile Decimal.isDigit, rest.dropWhile Decimal.isDigit)
  | ',' :: rest =>
    if separator = ';' ∧ startsWithDigit rest then
      (rest.takeWhile Decimal.isDigit, rest.dropWhile Decimal.isDigit)
    else ([], ',' :: rest)
  | cs => ([], cs)

def takeSign : List Char → Bool × List Char
  | '+' :: rest => (false, rest)
  | '-' :: rest => (true, rest)
  | cs => (false, cs)

-- A power of ten, when `e` or `E` and digits stand here, and the rest.
def takePower : List Char → Int × List Char
  | [] => (0, [])
  | c :: rest =>
    let (negative, digits) := takeSign rest
    if (c = 'e' ∨ c = 'E') ∧ startsWithDigit digits then
      let size : Int := Decimal.natOfDigits (digits.takeWhile Decimal.isDigit)
      (if negative then -size else size, digits.dropWhile Decimal.isDigit)
    else (0, c :: rest)

theorem length_takeFraction (separator : Char) (cs : List Char) :
    (takeFraction separator cs).2.length ≤ cs.length := by
  unfold takeFraction
  split
  · have := length_dropWhile_le Decimal.isDigit
    simp; exact Nat.le_succ_of_le (this _)
  · split
    · simp; exact Nat.le_succ_of_le (length_dropWhile_le _ _)
    · simp
  · simp

theorem length_takeSign (cs : List Char) : (takeSign cs).2.length ≤ cs.length := by
  unfold takeSign
  split <;> simp

theorem length_takePower (cs : List Char) : (takePower cs).2.length ≤ cs.length := by
  unfold takePower
  split
  · simp
  · rename_i c rest
    have bound := length_takeSign rest
    have drop := length_dropWhile_le Decimal.isDigit (takeSign rest).2
    simp only
    split
    · simp; omega
    · simp

def takeNumber (separator : Char) (cs : List Char) : Float × List Char :=
  let whole := cs.takeWhile Decimal.isDigit
  let (fraction, rest) := takeFraction separator (cs.dropWhile Decimal.isDigit)
  let (power, rest) := takePower rest
  ((Decimal.Numeral.ofParts whole fraction power).toFloat, rest)

-- A name that is neither a sheet name nor a function is a truth value, an address or a name.
def wordToken (word : String) : Token :=
  if Text.asciiSame word "TRUE" then .boolean true
  else if Text.asciiSame word "FALSE" then .boolean false
  else match Address.parse word with
    | .ok a => .cell a
    | .error _ => .identifier word

def takeWord (cs : List Char) : Token × List Char :=
  let word := String.ofList (cs.takeWhile isNamePart)
  match cs.dropWhile isNamePart with
  | '!' :: rest => (.sheet word, rest)
  | '(' :: rest => (.identifier word, '(' :: rest)
  | rest => (wordToken word, rest)

def symbol? (separator c : Char) : Option Token :=
  if c = separator then some .separator
  else match c with
    | '+' => some .plus
    | '-' => some .minus
    | '*' => some .star
    | '/' => some .slash
    | '&' => some .ampersand
    | ':' => some .colon
    | '(' => some .leftParen
    | ')' => some .rightParen
    | '=' => some .equal
    | _ => none

-- An operator that begins with `<` or `>`, after that character.
def takeComparison (c : Char) (rest : List Char) : Token × List Char :=
  if c = '<' then
    match rest with
    | '=' :: more => (.lessEqual, more)
    | '>' :: more => (.notEqual, more)
    | _ => (.less, rest)
  else
    match rest with
    | '=' :: more => (.greaterEqual, more)
    | _ => (.greater, rest)

def utf8Length (cs : List Char) : Nat := cs.foldl (fun size c => size + c.utf8Size) 0

-- The token that begins with `c`, and the text after it. The whole text has `size` bytes.
def scanToken (separator : Char) (size : Nat) (c : Char) (rest : List Char) :
    Except ScanError (Token × List Char) :=
  match symbol? separator c with
  | some token => .ok (token, rest)
  | none =>
    if c = '<' ∨ c = '>' then .ok (takeComparison c rest)
    else if c = '"' then
      match takeQuoted '"' rest with
      | some (s, after) => .ok (.text (String.ofList s), after)
      | none => .error .unterminatedText
    else if c = '\'' then
      match takeQuoted '\'' rest with
      | some (s, '!' :: after) => .ok (.sheet (String.ofList s), after)
      | some (s, _) => .error (.missingMark (String.ofList s))
      | none => .error .unterminatedSheet
    else if c = '#' then
      let text := String.ofList ('#' :: rest.takeWhile isErrorPart)
      match ErrorKind.ofText? text with
      | some e => .ok (.error e, rest.dropWhile isErrorPart)
      | none => .error (.unknownError text)
    else if Decimal.isDigit c ∨ c = '.' ∧ startsWithDigit rest then
      let (n, after) := takeNumber separator (c :: rest)
      .ok (.number n, after)
    else if isNameStart c then .ok (takeWord (c :: rest))
    else .error (.unexpectedCharacter c (size - utf8Length (c :: rest)))

theorem length_dropWhile_cons (p : Char → Bool) (c : Char) (rest : List Char) (h : p c = true) :
    ((c :: rest).dropWhile p).length ≤ rest.length := by
  rw [List.dropWhile_cons_of_pos h]
  exact length_dropWhile_le p rest

theorem length_takeNumber (separator c : Char) (rest : List Char)
    (h : Decimal.isDigit c = true ∨ c = '.') :
    (takeNumber separator (c :: rest)).2.length ≤ rest.length := by
  have power := length_takePower (takeFraction separator ((c :: rest).dropWhile Decimal.isDigit)).2
  refine Nat.le_trans power ?_
  rcases h with digit | rfl
  · exact Nat.le_trans (length_takeFraction _ _) (length_dropWhile_cons _ _ _ digit)
  · have stays : ('.' :: rest).dropWhile Decimal.isDigit = '.' :: rest := rfl
    rw [stays]
    exact length_dropWhile_le _ _

theorem isNamePart_of_isNameStart (c : Char) (h : isNameStart c = true) : isNamePart c = true := by
  simp only [isNameStart, Bool.or_eq_true] at h
  simp only [isNamePart, Bool.or_eq_true, Char.isAlphanum]
  grind

theorem length_takeWord (c : Char) (rest : List Char) (h : isNameStart c = true) :
    (takeWord (c :: rest)).2.length ≤ rest.length := by
  have drop := length_dropWhile_cons isNamePart c rest (isNamePart_of_isNameStart c h)
  unfold takeWord
  split <;> rename_i eq <;> simp [eq] at drop ⊢ <;> omega

theorem length_takeComparison (c : Char) (rest : List Char) :
    (takeComparison c rest).2.length ≤ rest.length := by
  unfold takeComparison
  split <;> split <;> simp

theorem length_scanToken {separator c : Char} {size : Nat} {rest after : List Char} {token : Token}
    (h : scanToken separator size c rest = .ok (token, after)) : after.length ≤ rest.length := by
  unfold scanToken at h
  split at h
  · simp at h; simp [h.2]
  · split at h
    · have := length_takeComparison c rest
      simp at h; simpa [h] using this
    · split at h
      · split at h
        · rename_i found
          have := length_takeQuoted _ _ _ _ found
          simp at h; rw [← h.2]; omega
        · simp at h
      · split at h
        · split at h
          · rename_i found
            have := length_takeQuoted _ _ _ _ found
            simp at h this; rw [← h.2]; omega
          · simp at h
          · simp at h
        · split at h
          · dsimp only at h
            split at h
            · simp at h
              rw [← h.2]; exact length_dropWhile_le _ _
            · simp at h
          · split at h
            · rename_i number
              have := length_takeNumber separator c rest (by
                rcases number with digit | ⟨point, _⟩
                · exact .inl digit
                · exact .inr point)
              simp at h; simpa [h.2] using this
            · split at h
              · rename_i start
                have := length_takeWord c rest start
                simp at h; simpa [h] using this
              · simp at h

-- The tokens of a text up to its end, which is a token too, or up to the first error.
structure Tokens where
  list : List Token
  failure? : Option ScanError

theorem length_of_trimStart {cs rest : List Char} {c : Char} (h : Text.trimStart cs = c :: rest) :
    rest.length < cs.length := by
  have := length_dropWhile_le Text.isBlank cs
  unfold Text.trimStart at h
  rw [h, List.length_cons] at this
  omega

def tokensFrom (separator : Char) (size : Nat) (cs : List Char) : Tokens :=
  match _blanks : Text.trimStart cs with
  | [] => ⟨[.eof], none⟩
  | c :: rest =>
    match _step : scanToken separator size c rest with
    | .error e => ⟨[], some e⟩
    | .ok (token, after) =>
      let following := tokensFrom separator size after
      ⟨token :: following.list, following.failure?⟩
termination_by cs.length
decreasing_by
  have := length_scanToken _step
  have := length_of_trimStart _blanks
  omega

def tokenize (cs : List Char) : Tokens := tokensFrom (detectSeparator cs) (utf8Length cs) cs

end Spreadsheet.Formula
