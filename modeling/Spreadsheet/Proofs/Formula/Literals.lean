import Spreadsheet.Formula.Evaluation
import Spreadsheet.Proofs.Formula.RoundTrip

-- Numbers and truth values mean the same typed into a cell and written as a formula. What the
-- reader of typed text takes for a numeral has a spelling that the scanner reads, and a sign,
-- which is a token of its own in a formula, has the same effect there.

set_option autoImplicit false

namespace Spreadsheet.Formula

open Spreadsheet.Formula.Parser

section Spellings

-- The digits of a power of ten behind its sign.
def powerDigits? (negative? : Option Bool) (digits : List Char) : Option Int :=
  if digits.isEmpty ∨ !digits.all Decimal.isDigit then none
  else some (if negative?.getD false then -(Decimal.natOfDigits digits : Int)
    else Decimal.natOfDigits digits)

theorem power_of_digits (mark : Char) (negative? : Option Bool) (digits : List Char) (p : Int)
    (marked : mark = 'e' ∨ mark = 'E') (read : powerDigits? negative? digits = some p) :
    ∃ power : Power, power.chars = mark :: (Power.sign negative? ++ digits) ∧ power.value = p := by
  unfold powerDigits? at read
  by_cases odd : digits.isEmpty = true ∨ (!digits.all Decimal.isDigit) = true
  · rw [if_pos odd] at read
    cases read
  · rw [if_neg odd] at read
    have filled : digits ≠ [] := by simpa using (not_or.mp odd).1
    have numeric : digits.all Decimal.isDigit = true := by simpa using (not_or.mp odd).2
    exact ⟨⟨mark, negative?, digits, marked, numeric, filled⟩, rfl, Option.some.inj read⟩

-- A power of ten that typed text may end in.
theorem power_of_read (cs : List Char) (p : Int) (read : Decimal.readPower? cs = some p) :
    ∃ power? : Option Power, (power?.map Power.chars).getD [] = cs ∧
      (power?.map Power.value).getD 0 = p := by
  cases cs with
  | nil => exact ⟨none, rfl, Option.some.inj read⟩
  | cons mark rest =>
    by_cases marked : mark = 'e' ∨ mark = 'E'
    · simp only [Decimal.readPower?, if_pos marked] at read
      split at read
      · obtain ⟨power, chars, value⟩ := power_of_digits mark (some false) _ p marked read
        exact ⟨some power, chars, value⟩
      · obtain ⟨power, chars, value⟩ := power_of_digits mark (some true) _ p marked read
        exact ⟨some power, chars, value⟩
      · obtain ⟨power, chars, value⟩ := power_of_digits mark none rest p marked read
        exact ⟨some power, chars, value⟩
    · simp only [Decimal.readPower?, if_neg marked] at read
      cases read

theorem spelling_of_parts (whole : List Char) (fraction? : Option (List Char)) (rest : List Char)
    (n : Decimal.Numeral) (wholeNumeric : whole.all Decimal.isDigit = true)
    (fractionNumeric : (fraction?.getD []).all Decimal.isDigit = true)
    (read : (if (whole.isEmpty && (fraction?.getD []).isEmpty) = true then none
      else (Decimal.readPower? rest).map
        (Decimal.Numeral.ofParts whole (fraction?.getD []))) = some n) :
    ∃ s : Spelling, s.chars = whole ++ ((fraction?.map ('.' :: ·)).getD [] ++ rest) ∧
      s.value = n.toFloat := by
  by_cases blank : (whole.isEmpty && (fraction?.getD []).isEmpty) = true
  · rw [if_pos blank] at read
    cases read
  · rw [if_neg blank] at read
    have filled : whole ++ fraction?.getD [] ≠ [] := by simpa using blank
    obtain ⟨p, power, same⟩ := Option.map_eq_some_iff.mp read
    obtain ⟨power?, chars, value⟩ := power_of_read rest p power
    refine ⟨⟨whole, fraction?, power?, wholeNumeric, fractionNumeric, filled⟩, ?_, ?_⟩
    · simp only [Spelling.chars, Spelling.fractionChars, Spelling.powerChars, chars]
    · simp only [Spelling.value, value, same]

theorem spelling_of_read (cs : List Char) (n : Decimal.Numeral)
    (read : Decimal.readUnsigned? cs = some n) :
    ∃ s : Spelling, s.chars = cs ∧ s.value = n.toFloat := by
  have whole : (cs.takeWhile Decimal.isDigit).all Decimal.isDigit = true := List.all_takeWhile
  have digits : cs.takeWhile Decimal.isDigit ++ cs.dropWhile Decimal.isDigit = cs :=
    List.takeWhile_append_dropWhile
  simp only [Decimal.readUnsigned?] at read
  split at read
  · rename_i more point
    have fraction : more.takeWhile Decimal.isDigit ++ more.dropWhile Decimal.isDigit = more :=
      List.takeWhile_append_dropWhile
    obtain ⟨s, chars, value⟩ := spelling_of_parts _ (some (more.takeWhile Decimal.isDigit)) _ n
      whole List.all_takeWhile read
    refine ⟨s, ?_, value⟩
    rw [chars, Option.map_some, Option.getD_some, List.cons_append, fraction, ← point, digits]
  · obtain ⟨s, chars, value⟩ := spelling_of_parts _ none _ n whole rfl read
    exact ⟨s, chars.trans digits, value⟩

end Spellings

section Words

theorem alpha_of_upper (c : Char) (alpha : c.toUpper.isAlpha = true) : c.isAlpha = true := by
  by_cases lower : c.isLower = true
  · show (c.isUpper || c.isLower) = true
    rw [lower, Bool.or_true]
  · have kept : c.toUpper = c := dif_neg fun both => lower (by
      unfold Char.isLower
      simpa using both)
    rwa [kept] at alpha

-- Letter case makes a letter of nothing else.
theorem letters_of_same (s t : String) (same : Text.asciiSame s t = true)
    (letters : (Text.asciiUpper t).toList.all Char.isAlpha = true) :
    ∀ c ∈ s.toList, c.isAlpha = true := by
  intro c member
  have upper : Text.asciiUpper s = Text.asciiUpper t := by simpa [Text.asciiSame] using same
  have present : c.toUpper ∈ (Text.asciiUpper t).toList := by
    rw [← upper, Text.asciiUpper, String.toList_ofList]
    exact List.mem_map_of_mem member
  exact alpha_of_upper c (List.all_eq_true.mp letters _ present)

theorem scan_letters (separator : Char) (size : Nat) (known : separator = ',' ∨ separator = ';')
    (cs : List Char) (filled : cs ≠ []) (letters : ∀ c ∈ cs, c.isAlpha = true) :
    Scans separator size cs (wordToken (String.ofList cs)) [] := by
  obtain ⟨c, more, rfl⟩ := List.exists_cons_of_ne_nil filled
  have start : isNameStart c = true := by simp [isNameStart, letters c List.mem_cons_self]
  have parts (d : Char) (member : d ∈ c :: more) : isNamePart d = true := by
    simp [isNamePart, Char.isAlphanum, letters d member]
  exact scan_word separator size known c more [] _ start
    (take_word separator known (c :: more) [] parts (by simp [Breaks]))

end Words

section Signs

variable (substitute : String → Option (Except ParseError Expr)) (room : Nat)

theorem signs_plus (fuel : Nat) (f : Nat → Parser Expr) (rest : List Token) (more : rest ≠ []) :
    Advances (signs (fuel + 1) >>= f) (.plus :: rest) 0 (signs fuel >>= f) rest := by
  rw [signs, bind_assoc]
  refine advances_trans _ _ _ _ _ _ 0 0 (advances_current _ .plus rest) ?_
  simp only [bind_assoc]
  exact advances_skip _ .plus rest more

-- A plus sign changes nothing.
theorem stands_plus (tokens : List Token) (count : Nat) (e : Expr) (few : count ≤ maxNodes)
    (signed : Signed substitute room tokens count e) :
    Stands substitute room (.plus :: tokens) count e 4 := by
  intro t rest loose
  have enough : count < maxLength := Nat.lt_of_le_of_lt few (by decide)
  rw [← Nat.zero_add count]
  exact advances_trans _ _ _ _ _ _ 0 count
    (signs_plus maxLength _ (tokens ++ t :: rest) (by simp))
    (signed t rest maxLength id loose enough)

theorem stands_looser (tokens : List Token) (count : Nat) (e : Expr) (few : count ≤ maxNodes)
    (stands : Stands substitute room tokens count e 4) :
    Stands substitute room tokens count e 0 := by
  have chained := chained_of_stands substitute room tokens count e 3 stands
  exact stands_of_chained substitute room tokens count e few 0 (by decide)
    (chained_below substitute room tokens count e few 3 (by decide) chained 0 (by decide))

end Signs

-- Formula text that is read as an expression with the value, whatever the cells hold.
structure Denotes (cs : List Char) (tokens : List Token) (e : Expr) (v : Value) : Prop where
  scanned : ∀ separator size, separator = ',' ∨ separator = ';' →
    tokensFrom separator size cs = ⟨tokens ++ [.eof], none⟩
  filled : tokens ≠ []
  stands : ∀ substitute room, ∃ count ≤ maxNodes, Stands substitute room tokens count e 0
  value : ∀ home, e.evaluate home = .done v

section Denoting

theorem denotes_leaf (cs : List Char) (token : Token) (e : Expr) (v : Value)
    (scans : ∀ separator size, separator = ',' ∨ separator = ';' →
      Scans separator size cs token [])
    (leaf : leaf? token = some e) (value : ∀ home, e.evaluate home = .done v) :
    Denotes cs [token] e v := by
  refine ⟨fun separator size known => ?_, by simp, fun substitute room => ?_, value⟩
  · have scanned := tokens_from_scans separator size cs token [] (scans separator size known)
    rwa [List.append_nil, tokens_from_nil] at scanned
  · exact ⟨0, Nat.zero_le maxNodes, stands_of_reads substitute room _ 0 e (Nat.zero_le maxNodes)
      4 0 (by decide) (by decide) (reads_leaf substitute room token e 4 leaf)⟩

theorem denotes_sign (sign : Char) (token : Token) (cs : List Char) (tokens : List Token)
    (e signed : Expr) (v w : Value)
    (symbol : ∀ separator, separator = ',' ∨ separator = ';' → symbol? separator sign = some token)
    (visible : Text.isBlank sign = false) (denotes : Denotes cs tokens e v)
    (stands : ∀ substitute room, ∃ count ≤ maxNodes,
      Stands substitute room (token :: tokens) count signed 0)
    (value : ∀ home, signed.evaluate home = .done w) :
    Denotes (sign :: cs) (token :: tokens) signed w := by
  refine ⟨fun separator size known => ?_, by simp, stands, value⟩
  have scanned := tokens_from_scans separator size [sign] token cs
    (scan_symbol separator size sign token cs (symbol separator known) visible)
  rwa [denotes.scanned separator size known] at scanned

variable (s : Spelling)

theorem denotes_numeral :
    Denotes s.chars [.number s.value] (.number s.value) (.number s.value) :=
  denotes_leaf s.chars _ _ _
    (fun separator size known => scan_number separator size known s [] (by simp [Breaks])) rfl
    fun _ => rfl

theorem denotes_positive :
    Denotes ('+' :: s.chars) [.plus, .number s.value] (.number s.value) (.number s.value) := by
  refine denotes_sign '+' .plus s.chars _ _ _ _ _ ?_ (by decide) (denotes_numeral s) ?_
    fun _ => rfl
  · rintro _ (rfl | rfl) <;> rfl
  · intro substitute room
    have reads := reads_leaf substitute room (.number s.value) _ 4 rfl
    have few : 0 ≤ maxNodes := Nat.zero_le maxNodes
    exact ⟨0, few, stands_looser substitute room _ 0 _ few
      (stands_plus substitute room _ 0 _ few (reads.signed (Nat.le_refl 4)))⟩

theorem denotes_negative : Denotes ('-' :: s.chars) [.minus, .number s.value]
    (.negate (.number s.value)) (.number (-s.value)) := by
  refine denotes_sign '-' .minus s.chars _ _ _ _ _ ?_ (by decide) (denotes_numeral s) ?_
    fun _ => rfl
  · rintro _ (rfl | rfl) <;> rfl
  · intro substitute room
    have reads := reads_leaf substitute room (.number s.value) _ 4 rfl
    have few : 1 ≤ maxNodes := by decide
    exact ⟨1, few, stands_of_reads substitute room _ 1 _ few 4 0 (by decide) (by decide)
      (reads_negate substitute room _ 0 _ 4 few (Nat.le_refl 4) reads)⟩

-- What typed text has for a number is written as a formula in the same way.
theorem denotes_of_read (cs : List Char) (n : Float) (read : Decimal.readFloat? cs = some n) :
    ∃ tokens e, Denotes cs tokens e (.number n) := by
  unfold Decimal.readFloat? at read
  split at read
  all_goals
    obtain ⟨m, unsigned, same⟩ := Option.map_eq_some_iff.mp read
    obtain ⟨s, rfl, value⟩ := spelling_of_read _ m unsigned
    rw [← same, ← value]
  · exact ⟨_, _, denotes_positive s⟩
  · exact ⟨_, _, denotes_negative s⟩
  · exact ⟨_, _, denotes_numeral s⟩

theorem denotes_of_word (cs : List Char) (b : Bool) (filled : cs ≠ [])
    (letters : ∀ c ∈ cs, c.isAlpha = true)
    (token : wordToken (String.ofList cs) = .boolean b) :
    Denotes cs [.boolean b] (.boolean b) (.boolean b) :=
  denotes_leaf cs _ _ _
    (fun separator size known => token ▸ scan_letters separator size known cs filled letters) rfl
    fun _ => rfl

theorem denotes_of_typed (t : String) (v : Value) (typed : Value.ofTyped t = v)
    (kind : (∃ n, v = .number n) ∨ ∃ b, v = .boolean b) :
    ∃ tokens e, Denotes (Text.trimChars t.toList) tokens e v := by
  have listed : (Text.trim t).toList = Text.trimChars t.toList := String.toList_ofList
  by_cases blank : Text.trim t = ""
  · simp only [Value.ofTyped, if_pos blank] at typed
    simp [← typed] at kind
  have filled : Text.trimChars t.toList ≠ [] := fun none => blank (by simp [Text.trim, none])
  have letters (word : String) (same : Text.asciiSame (Text.trim t) word = true)
      (alpha : (Text.asciiUpper word).toList.all Char.isAlpha = true) :
      ∀ c ∈ Text.trimChars t.toList, c.isAlpha = true :=
    listed ▸ letters_of_same (Text.trim t) word same alpha
  by_cases yes : Text.asciiSame (Text.trim t) "TRUE" = true
  · simp only [Value.ofTyped, if_neg blank, if_pos yes] at typed
    exact typed ▸ ⟨_, _, denotes_of_word _ true filled (letters "TRUE" yes (by decide))
      (if_pos yes)⟩
  by_cases no : Text.asciiSame (Text.trim t) "FALSE" = true
  · simp only [Value.ofTyped, if_neg blank, if_neg yes, if_pos no] at typed
    exact typed ▸ ⟨_, _, denotes_of_word _ false filled (letters "FALSE" no (by decide))
      ((if_neg yes).trans (if_pos no))⟩
  cases read : Decimal.readFloat? (Text.trim t).toList with
  | some n =>
    simp only [Value.ofTyped, if_neg blank, if_neg yes, if_neg no, read] at typed
    exact typed ▸ denotes_of_read _ n (listed ▸ read)
  | none =>
    simp only [Value.ofTyped, if_neg blank, if_neg yes, if_neg no, read] at typed
    cases spelled : ErrorKind.ofText? (Text.trim t) <;> simp [← typed, spelled] at kind

end Denoting

section Formula

-- Of the blanks around a text, those before it stay after the equals sign.
theorem body_after_equals (t : String) (filled : Text.trimChars t.toList ≠ []) :
    ∃ blanks, (∀ c ∈ blanks, Text.isBlank c = true) ∧
      body ("=" ++ t) = blanks ++ Text.trimChars t.toList ∧
      (blanks ++ Text.trimChars t.toList).length ≤ t.length := by
  obtain ⟨before, after, blank, trailing, parts⟩ := Text.blanks_around t.toList
  have solid := Text.solid_append ('=' :: before) _
    (Text.solid_trim_end (Text.trimStart t.toList) filled)
  have trimmed : Text.trimChars ('=' :: t.toList) = '=' :: before ++ Text.trimChars t.toList := by
    have kept : Text.trimStart ('=' :: t.toList) = '=' :: t.toList :=
      List.dropWhile_cons_of_neg (by decide)
    rw [Text.trimChars, kept, parts, ← List.cons_append, ← List.cons_append,
      Text.trim_end_blanks _ after trailing, ← parts]
    exact Text.trim_end_of_solid _ solid
  refine ⟨before, blank, ?_, ?_⟩
  · rw [body, String.toList_append, show "=".toList ++ t.toList = '=' :: t.toList from rfl, trimmed]
    rfl
  · have whole := congrArg List.length parts
    rw [List.length_append, String.length_toList] at whole
    omega

theorem denotes_filled (cs : List Char) (tokens : List Token) (e : Expr) (v : Value)
    (denotes : Denotes cs tokens e v) : cs ≠ [] := by
  rintro rfl
  have none := denotes.scanned ',' 0 (.inl rfl)
  rw [tokens_from_nil] at none
  have lists : [Token.eof] = tokens ++ [.eof] := congrArg Tokens.list none
  exact denotes.filled (List.append_cancel_right (lists.symm.trans (List.nil_append _).symm))

theorem parse_denoting (tokens : List Token) (e : Expr) (cs : List Char) (v : Value)
    (denotes : Denotes cs tokens e v) (substitute : String → Option (Except ParseError Expr)) :
    parseTokens substitute ⟨tokens ++ [.eof], none⟩ = .ok e := by
  obtain ⟨room, top⟩ : ∃ room, maxDepth = room + 1 := ⟨127, rfl⟩
  obtain ⟨count, few, stands⟩ := denotes.stands substitute room
  have run := stands .eof [] (by decide) 0 (by omega)
  rw [← expression_layer, ← top] at run
  obtain ⟨first, more, rfl⟩ := List.exists_cons_of_ne_nil denotes.filled
  rw [parseTokens, run]
  · rfl
  · simp

end Formula

-- Text that is typed into a cell for a number or a truth value stands for the same value as a
-- formula, and that formula reads nothing.
theorem typed_literal_as_formula (t : String) (v : Value) (typed : Value.ofTyped t = v)
    (kind : (∃ n, v = .number n) ∨ ∃ b, v = .boolean b) (short : t.length ≤ maxLength) :
    ∃ e, parse ("=" ++ t) = .ok e ∧ ∀ home, e.evaluate home = .done v := by
  obtain ⟨tokens, e, denotes⟩ := denotes_of_typed t v typed kind
  have filled := denotes_filled _ tokens e v denotes
  obtain ⟨blanks, blank, same, length⟩ := body_after_equals t filled
  have solid := Text.solid_append blanks _
    (Text.solid_trim_end (Text.trimStart t.toList) filled)
  have visible : ¬(blanks ++ Text.trimChars t.toList).all Text.isBlank = true :=
    Bool.eq_false_iff.mp (Text.not_all_blank_of_solid _ solid)
  have fits : ¬maxLength < (blanks ++ Text.trimChars t.toList).length :=
    Nat.not_lt.mpr (length.trans short)
  refine ⟨e, ?_, denotes.value⟩
  rw [parse, same, parseBody, if_neg visible, if_neg fits, tokenize, detectSeparator,
    tokens_after_blanks _ _ blanks _ blank, denotes.scanned _ _ (separator_known _ false false)]
  exact parse_denoting tokens e _ v denotes _

-- A sign, blanks, a point with nothing before it and a signed power of ten.
theorem signed_numeral_as_formula :
    ∃ e, parse "= -.5E+2\t" = .ok e ∧ ∀ home, e.evaluate home =
      .done (.number (-50.0)) :=
  typed_literal_as_formula " -.5E+2\t" _ (by rfl) (.inl ⟨_, rfl⟩) (by decide)

end Spreadsheet.Formula
